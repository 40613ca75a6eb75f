/-
SQL text as a list of characters, and the few operations on it that every
other module needs: cutting blanks off its ends, splitting it into words,
changing the case of its letters, joining pieces with a separator.

Text is a list so that each operation is a recursion on the list, and what it
does to `++` is said by one lemma beside it.
-/

namespace BoundSql

abbrev Text := List Char

instance : Coe String Text := ⟨String.toList⟩

namespace Text

/-! ## Blanks -/

/-- The characters with the Unicode property `White_Space`. A zero-width space
(U+200B), a byte-order mark (U+FEFF) and the information separators (U+001C to
U+001F) are not among them. -/
def isBlank (c : Char) : Bool :=
  let n := c.toNat
  (9 ≤ n && n ≤ 13) || n == 0x20 || n == 0x85 || n == 0xA0 || n == 0x1680 ||
    (0x2000 ≤ n && n ≤ 0x200A) || n == 0x2028 || n == 0x2029 || n == 0x202F ||
    n == 0x205F || n == 0x3000

/-- Text without a character to see: empty, or blanks only. -/
def blank (t : Text) : Bool := t.all isBlank

/-- The text from its first character that is no blank. -/
def trimStart (t : Text) : Text := t.dropWhile isBlank

/-- The text up to its last character that is no blank. -/
def trimEnd : Text → Text
  | [] => []
  | c :: rest =>
    match trimEnd rest with
    | [] => if isBlank c then [] else [c]
    | kept => c :: kept

/-- The text without the blanks at its two ends. -/
def trim (t : Text) : Text := trimEnd (trimStart t)

/-! ## Cutting into parts -/

/-- The stretches between the characters `p` holds of, empty ones included. -/
def splitWhere (p : Char → Bool) : Text → List Text
  | [] => [[]]
  | c :: rest =>
    if p c then [] :: splitWhere p rest
    else match splitWhere p rest with
      | [] => [[c]]
      | part :: parts => (c :: part) :: parts

/-- The words of a text: its stretches between blanks that are not empty. -/
def words (t : Text) : List Text := (splitWhere isBlank t).filter (!·.isEmpty)

/-- Whether `part` occurs in the text as a run of neighbouring characters. -/
def occurs (part : Text) : Text → Bool
  | [] => part.isEmpty
  | c :: rest => part.isPrefixOf (c :: rest) || occurs part rest

theorem occurs_iff {part t : Text} : occurs part t = true ↔ part <:+: t := by
  induction t with
  | nil => simp [occurs]
  | cons c t ih => rw [occurs, Bool.or_eq_true, ih, List.isPrefixOf_iff_prefix, List.infix_cons_iff]

/-! ## Rewriting -/

def lower (t : Text) : Text := t.map Char.toLower

def upper (t : Text) : Text := t.map Char.toUpper

/-- The texts in order, `separator` between each two of them. -/
def joined (separator : Text) : List Text → Text
  | [] => []
  | [t] => t
  | t :: u :: rest => t ++ separator ++ joined separator (u :: rest)

theorem joined_cons (s t : Text) (ts : List Text) :
    joined s (t :: ts) = t ++ ts.flatMap fun u => s ++ u := by
  induction ts generalizing t with
  | nil => simp [joined]
  | cons u ts ih => simp [joined, ih]

end Text

end BoundSql
