import Covenant.Proofs.Text.Lines

/-! Names in lines of code: the constants that a line declares and those that it reads, and the
spelling of the functions of conditions. -/
namespace Covenant.Code

/-! ### Declarations -/

/-- The words of a line, parted by blanks. -/
def words (line : List Char) : List (List Char) := (Text.pieces ' ' line).filter (!·.isEmpty)

/-- The constant that a line declares: a type, two keywords, and its name. -/
def declared? (line : List Char) : Option String :=
  match words line with
  | _ :: visibility :: keyword :: name :: _ =>
    if visibility = "public".toList ∧ keyword = "constant".toList then some (String.ofList name)
    else none
  | _ => none

def declaredNames (code : List (List Char)) : List String := code.filterMap declared?

/-- The constants that the built-in templates declare themselves. -/
def ownConstants : List String :=
  ["CONTRACT_TYPE", "JURISDICTION", "DISPUTE_FORUM", "LEGAL_REQUIREMENT_COUNT"]

/-! ### Uses -/

/-- A line without its comment, and with a blank for every string in it. -/
def codeFrom : Bool → List Char → List Char
  | _, [] => []
  | false, '/' :: '/' :: _ => []
  | false, '"' :: cs => ' ' :: codeFrom true cs
  | false, c :: cs => c :: codeFrom false cs
  | true, '\\' :: _ :: cs => codeFrom true cs
  | true, '"' :: cs => codeFrom false cs
  | true, _ :: cs => codeFrom true cs

def isCapital (c : Char) : Bool := 'A' ≤ c && c ≤ 'Z'

def isDigit (c : Char) : Bool := '0' ≤ c && c ≤ '9'

def isNameChar (c : Char) : Bool :=
  isCapital c || isDigit c || ('a' ≤ c && c ≤ 'z') || c == '_' || c == '$'

def isConstantChar (c : Char) : Bool := isCapital c || isDigit c || c == '_'

/-- Written as the names of constants are: in capital letters, digits and underscores. -/
def isConstantName : List Char → Bool
  | [] => false
  | c :: cs => !isDigit c && (c :: cs).all isConstantChar

/-- Nothing, or a text whose first character may stand in the name of a constant. -/
def beginsLikeConstant (cs : List Char) : Bool := cs.head?.all isConstantChar

/-- Spelled like the function of a condition: `on`, and after that no small letter. -/
def isFunctionName : List Char → Bool
  | 'o' :: 'n' :: rest => beginsLikeConstant rest
  | _ => false

/-- The names in code, in order. -/
def names (cs : List Char) : List (List Char) :=
  (Text.pieces ' ' (cs.map fun c => if isNameChar c then c else ' ')).filter (!·.isEmpty)

/-- The rule constants that a line reads: the names of constants in its code, other than those of
the templates. -/
def constantsRead (line : List Char) : List String :=
  ((names (codeFrom false line)).filter isConstantName).map String.ofList |>.filter
    (!ownConstants.contains ·)

/-- The rule constants that the lines of a text read. -/
def reads (code : List Char) : List String := (Text.lines code).flatMap constantsRead

theorem isNameChar_of_isConstantChar {c : Char} (h : isConstantChar c = true) :
    isNameChar c = true := by
  simp only [isConstantChar, isNameChar, Bool.or_eq_true] at h ⊢
  rcases h with h | h <;> simp [h]

theorem codeFrom_eq_self {cs : List Char} (hquote : '"' ∉ cs) (hslash : '/' ∉ cs) :
    codeFrom false cs = cs := by
  induction cs with
  | nil => rfl
  | cons c cs ih =>
    rw [List.mem_cons, not_or] at hquote hslash
    rw [codeFrom, ih hquote.2 hslash.2]
    · exact fun _ hc => absurd hc.symm hslash.1
    · exact fun hc => hquote.1 hc.symm

theorem names_append (as bs : List Char) : names (as ++ ' ' :: bs) = names as ++ names bs := by
  simp only [names, List.map_append, List.map_cons]
  rw [show (if isNameChar ' ' then ' ' else ' ') = ' ' from rfl, Text.pieces_append_separator,
    List.filter_append]

/-- A word is the only name in it, if it is one. -/
theorem names_of_nameChars {word : List Char} (h : ∀ c ∈ word, isNameChar c = true) :
    names word = [word].filter (!·.isEmpty) := by
  have hmap : word.map (fun c => if isNameChar c then c else ' ') = word := by
    refine (List.map_congr_left fun c hc => ?_).trans (List.map_id word)
    rw [if_pos (h c hc)]
    rfl
  have hblank : ' ' ∉ word := fun hmem => Bool.noConfusion (h ' ' hmem)
  rw [names, hmap, Text.pieces_of_not_mem hblank]

/-- A line of plain code reads what is read before a word, the word, and what is read after it. -/
theorem mem_constantsRead_append {as word bs : List Char} {constant : String}
    (hquote : '"' ∉ as ++ ' ' :: (word ++ ' ' :: bs)) (hslash : '/' ∉ as ++ ' ' :: (word ++ ' ' :: bs))
    (hword : ∀ c ∈ word, isNameChar c = true)
    (h : constant ∈ constantsRead (as ++ ' ' :: (word ++ ' ' :: bs))) :
    constant = String.ofList word ∨
      ∃ name ∈ names as ++ names bs, isConstantName name = true ∧ constant = String.ofList name := by
  rw [constantsRead, codeFrom_eq_self hquote hslash, names_append, names_append,
    names_of_nameChars hword] at h
  obtain ⟨name, hname, rfl⟩ := List.mem_map.1 (List.mem_filter.1 h).1
  obtain ⟨hname, hconstant⟩ := List.mem_filter.1 hname
  rcases List.mem_append.1 hname with hname | hname
  · exact .inr ⟨name, List.mem_append_left _ hname, hconstant, rfl⟩
  rcases List.mem_append.1 hname with hname | hname
  · rw [List.mem_singleton.1 (List.mem_filter.1 hname).1]
    exact .inl rfl
  · exact .inr ⟨name, List.mem_append_right _ hname, hconstant, rfl⟩

theorem reads_of_line {line : List Char} (h : '\n' ∉ line) : reads line = constantsRead line := by
  simp [reads, Text.lines, Text.pieces_of_not_mem h]

end Covenant.Code
