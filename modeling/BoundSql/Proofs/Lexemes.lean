/-
How a database splits SQL: characters that stand for themselves, and string
literals in single or double quotes.

In a literal a backslash changes what the next character stands for, and the
quote written twice is a quote. `Lexer` reads a text from left to right. It also
reads text with placeholders, cut into pieces: a placeholder is one lexeme, and
a percent sign written twice is one.

A closing quote only shows by what follows it, so what a part of a text is read
as is said for any text behind it that begins with no quote (`ReadAs`).
-/
import BoundSql.Proofs.LiteralFacts
import BoundSql.Proofs.SubstitutionFacts

namespace BoundSql

/-! ## The lexer -/

inductive Lexeme where
  | char (c : Char)
  | hole (p : Placeholder)
  | quoted (mark : Char) (content : Text)
  | unclosed (mark : Char) (content : Text)
  deriving DecidableEq

/-- The quotes a string literal can stand in. -/
def isMark (c : Char) : Bool := c == '\x27' || c == '\x22'

/-- What a character stands for behind a backslash. -/
def unescaped (c : Char) : Text :=
  match c with
  | '0' => ['\x00']
  | 'b' => ['\x08']
  | 'n' => ['\n']
  | 'r' => ['\r']
  | 't' => ['\t']
  | 'Z' => ['\x1a']
  | '%' => ['\\', '%']
  | '_' => ['\\', '_']
  | c => [c]

/-- Where a reader of SQL is: outside of literals, in one, in one behind a
backslash, or behind a quote that may be the end of one. -/
inductive Lexer where
  | plain
  | within (mark : Char) (content : Text)
  | escaped (mark : Char) (content : Text)
  | ended (mark : Char) (content : Text)

namespace Lexer

/-- What a character does. -/
def next : Lexer → Char → List Lexeme × Lexer
  | .plain, c => if isMark c then ([], .within c []) else ([.char c], .plain)
  | .within m t, c =>
    if c = m then ([], .ended m t)
    else if c = '\\' then ([], .escaped m t)
    else ([], .within m (t ++ [c]))
  | .escaped m t, c => ([], .within m (t ++ unescaped c))
  | .ended m t, c =>
    if c = m then ([], .within m (t ++ [m]))
    else if isMark c then ([.quoted m t], .within c [])
    else ([.quoted m t, .char c], .plain)

/-- What a piece does. In a literal, a placeholder is the two characters it is
written as. -/
def step : Lexer → Piece → List Lexeme × Lexer
  | s, .char c => s.next c
  | s, .percent => s.next '%'
  | .plain, .token p => ([.hole p], .plain)
  | .ended m t, .token p => ([.quoted m t, .hole p], .plain)
  | .within m t, .token p => ([], .within m (t ++ p.text))
  | .escaped m t, .token p => ([], .within m (t ++ unescaped '%' ++ [p.letter]))

/-- What is left to say at the end. -/
def finish : Lexer → List Lexeme
  | .plain => []
  | .within m t | .escaped m t => [.unclosed m t]
  | .ended m t => [.quoted m t]

def run (s : Lexer) : List Piece → List Lexeme
  | [] => s.finish
  | x :: rest => (s.step x).1 ++ run (s.step x).2 rest

end Lexer

/-- The lexemes of text with placeholders. -/
def Piece.lexemes (ps : List Piece) : List Lexeme := Lexer.plain.run ps

/-- The lexemes of a text as a database receives it. -/
def Text.lexemes (t : Text) : List Lexeme := Piece.lexemes (t.map .char)

namespace Lexeme

/-- Whether a lexeme is no literal without an end. -/
def isClosed : Lexeme → Bool
  | .unclosed .. => false
  | _ => true

def hole? : Lexeme → Option Placeholder
  | .hole p => some p
  | _ => none

/-- Lexemes with others in place of the holes, in order. -/
def plug : List Lexeme → List (List Lexeme) → List Lexeme
  | .hole _ :: rest, w :: ws => w ++ plug rest ws
  | l :: rest, ws => l :: plug rest ws
  | [], _ => []

theorem plug_append {ls : List Lexeme} (h : ls.filterMap hole? = []) (rest : List Lexeme)
    (ws : List (List Lexeme)) : plug (ls ++ rest) ws = ls ++ plug rest ws := by
  induction ls with
  | nil => rfl
  | cons l ls ih =>
    cases l with
    | hole p => simp [hole?] at h
    | char c => rw [List.cons_append, plug, ih h, List.cons_append]; simp
    | quoted m t => rw [List.cons_append, plug, ih h, List.cons_append]; simp
    | unclosed m t => rw [List.cons_append, plug, ih h, List.cons_append]; simp

end Lexeme

/-! ## Part by part -/

namespace Lexer

/-- Pieces that begin with no quote. -/
def Detached (ps : List Piece) : Prop := ∀ c, .char c ∈ ps.head? → isMark c = false

theorem Detached.nil : Detached [] := by simp [Detached]

/-- Pieces are read as lexemes, whatever is behind them. -/
def ReadAs (ps : List Piece) (ls : List Lexeme) : Prop :=
  ∀ rest, Detached rest → plain.run (ps ++ rest) = ls ++ plain.run rest

theorem ReadAs.lexemes_eq {ps : List Piece} {ls : List Lexeme} (h : ReadAs ps ls) :
    Piece.lexemes ps = ls := by
  have hnil := h [] .nil
  rwa [List.append_nil, show plain.run [] = [] from rfl, List.append_nil] at hnil

/-- A literal ends where no quote follows it. -/
theorem run_ended {m : Char} (hm : isMark m = true) (t : Text) {rest : List Piece}
    (h : Detached rest) : (ended m t).run rest = .quoted m t :: plain.run rest := by
  have hnext : ∀ c, isMark c = false →
      (ended m t).next c = (.quoted m t :: (plain.next c).1, (plain.next c).2) := by
    intro c hc
    have hne : c ≠ m := by
      rintro rfl
      rw [hm] at hc
      cases hc
    simp [next, hne, hc]
  cases rest with
  | nil => rfl
  | cons x rest =>
    cases x with
    | char c => simp only [run, step, hnext c (h c rfl), List.cons_append]
    | percent => simp only [run, step, hnext '%' rfl, List.cons_append]
    | token p => rfl

/-! ### Characters -/

theorem run_char {c : Char} (hc : isMark c = false) (rest : List Piece) :
    plain.run (.char c :: rest) = .char c :: plain.run rest := by
  simp [run, step, next, hc]

theorem run_chars {t : Text} (ht : ∀ c ∈ t, isMark c = false) (rest : List Piece) :
    plain.run (t.map .char ++ rest) = t.map .char ++ plain.run rest := by
  induction t with
  | nil => rfl
  | cons c t ih =>
    rw [List.map_cons, List.cons_append, run_char (ht c (by simp)),
      ih fun d hd => ht d (by simp [hd])]
    rfl

/-- A percent sign written twice is read as one. -/
theorem run_ofChar (s : Lexer) (t : Text) (rest : List Piece) :
    s.run (t.map Piece.ofChar ++ rest) = s.run (t.map .char ++ rest) := by
  induction t generalizing s with
  | nil => rfl
  | cons c t ih =>
    have hstep : s.step (Piece.ofChar c) = s.step (.char c) := by
      unfold Piece.ofChar
      split
      next hc => rw [hc]; cases s <;> rfl
      next => rfl
    rw [List.map_cons, List.map_cons, List.cons_append, List.cons_append, run, run, hstep, ih]

/-! ### Literals -/

/-- A text takes the reader from one place to another without a lexeme on the
way. -/
inductive Moves : Lexer → Text → Lexer → Prop
  | nil (s : Lexer) : Moves s [] s
  | cons {s s' : Lexer} {c : Char} {t : Text} :
      (s.next c).1 = [] → Moves (s.next c).2 t s' → Moves s (c :: t) s'

theorem Moves.append {s s' s'' : Lexer} {t u : Text} (h : Moves s t s') (h' : Moves s' u s'') :
    Moves s (t ++ u) s'' := by
  induction h with
  | nil => exact h'
  | cons hc _ ih => exact .cons hc (ih h')

/-- What is behind the text is read from where it ends. -/
theorem Moves.run {s s' : Lexer} {t : Text} (h : Moves s t s') (rest : List Piece) :
    s.run (t.map .char ++ rest) = s'.run rest := by
  induction h with
  | nil => rfl
  | cons hc _ ih =>
    rw [List.map_cons, List.cons_append, Lexer.run, step, hc, List.nil_append]
    exact ih

/-- A character that is neither the quote nor a backslash stands for itself. -/
theorem moves_self {m c : Char} (hm : c ≠ m) (hb : c ≠ '\\') (t : Text) :
    Moves (within m t) [c] (within m (t ++ [c])) := by
  have hnext : (within m t).next c = ([], within m (t ++ [c])) := by simp [next, hm, hb]
  exact .cons (by rw [hnext]) (by rw [hnext]; exact .nil _)

/-- A character of a bound text comes back out of its literal. -/
theorem moves_quoteChar (t : Text) (c : Char) :
    Moves (within '\x27' t) (quoteChar c) (within '\x27' (t ++ [c])) := by
  unfold quoteChar
  split
  case h_8 hb hq _ _ _ _ _ => exact moves_self hq hb t
  all_goals exact .cons rfl (.cons rfl (.nil _))

theorem moves_quoteChars (t u : Text) :
    Moves (within '\x27' t) (u.flatMap quoteChar) (within '\x27' (t ++ u)) := by
  induction u generalizing t with
  | nil =>
    rw [List.append_nil]
    exact .nil _
  | cons c u ih =>
    have hrest := ih (t ++ [c])
    rw [List.append_assoc] at hrest
    exact (moves_quoteChar t c).append hrest

/-- Behind the quote that opens it, a quoted text is read up to its end. -/
theorem moves_closing (t : Text) :
    Moves (within '\x27' []) (t.flatMap quoteChar ++ ['\x27']) (ended '\x27' t) :=
  (moves_quoteChars [] t).append (.cons rfl (.nil _))

/-- A quoted text is one literal with the text in it. -/
theorem readAs_quoted (t : Text) : ReadAs ((quoted t).map .char) [.quoted '\x27' t] := by
  intro rest h
  have hmoves : Moves plain (quoted t) (ended '\x27' t) := .cons rfl (moves_closing t)
  rw [hmoves.run, run_ended rfl t h]
  rfl

theorem moves_within {m : Char} {u : Text} (hu : ∀ c ∈ u, c ≠ m ∧ c ≠ '\\') (t : Text) :
    Moves (within m t) u (within m (t ++ u)) := by
  induction u generalizing t with
  | nil =>
    rw [List.append_nil]
    exact .nil _
  | cons c u ih =>
    obtain ⟨⟨hm, hb⟩, hrest⟩ := List.forall_mem_cons.mp hu
    have hmoves := ih hrest (t ++ [c])
    rw [List.append_assoc] at hmoves
    exact (moves_self hm hb t).append hmoves

/-- Text in double quotes, as a path in a JSON value is written. -/
theorem readAs_path {t : Text} (ht : ∀ c ∈ t, c ≠ '\x22' ∧ c ≠ '\\') :
    ReadAs (('\x22' :: t ++ ['\x22']).map .char) [.quoted '\x22' t] := by
  intro rest h
  have hmoves : Moves plain ('\x22' :: t ++ ['\x22']) (ended '\x22' t) :=
    .cons rfl ((moves_within ht []).append (.cons rfl (.nil _)))
  rw [hmoves.run, run_ended rfl t h]
  rfl

end Lexer

/-! ## The literals of bindings -/

theorem isMark_of_isNumeral {c : Char} (h : isNumeral c = true) : isMark c = false := by
  simp only [isMark, Bool.or_eq_false_iff, beq_eq_false_iff_ne]
  constructor <;> rintro rfl <;> revert h <;> decide

namespace Binding

/-- The lexemes of the literal of a binding. -/
def lexemes (b : Binding) : List Lexeme := Text.lexemes b.literal

/-- What the literal of a binding is read as: a literal with the text of the
binding in it, or characters without a quote. -/
theorem readAs_cases (b : Binding) :
    (b.isSqlNull = false ∧ b.IsText) ∧
        Lexer.ReadAs (b.literal.map .char) [.quoted '\x27' b.value.text] ∨
      ¬(b.isSqlNull = false ∧ b.IsText) ∧ (∀ c ∈ b.literal, isMark c = false) ∧
        Lexer.ReadAs (b.literal.map .char) (b.literal.map .char) := by
  rcases b.literal_cases with ⟨hn, h⟩ | ⟨ht, h⟩ | ⟨ht, -, h⟩
  · have hmark : ∀ c ∈ b.literal, isMark c = false := by
      rw [h]
      simp [isMark]
    exact .inr ⟨by simp [hn], hmark, fun rest _ => Lexer.run_chars hmark rest⟩
  · rw [h]
    exact .inl ⟨ht, Lexer.readAs_quoted _⟩
  · have hmark : ∀ c ∈ b.literal, isMark c = false := fun c hc => isMark_of_isNumeral (h c hc)
    exact .inr ⟨fun hb => ht hb.2, hmark, fun rest _ => Lexer.run_chars hmark rest⟩

theorem readAs_literal (b : Binding) : Lexer.ReadAs (b.literal.map .char) b.lexemes := by
  rcases b.readAs_cases with ⟨-, h⟩ | ⟨-, -, h⟩ <;> rwa [lexemes, Text.lexemes, h.lexemes_eq]

/-- The literal of a text that is not NULL is one quoted literal. -/
theorem lexemes_of_text {b : Binding} (hn : b.isSqlNull = false) (ht : b.IsText) :
    b.lexemes = [.quoted '\x27' b.value.text] := by
  rcases b.readAs_cases with ⟨-, h⟩ | ⟨h, -⟩
  · exact h.lexemes_eq
  · exact absurd ⟨hn, ht⟩ h

/-- Any other literal is its characters, and no quote is among them. -/
theorem lexemes_of_not_text {b : Binding} (h : ¬(b.isSqlNull = false ∧ b.IsText)) :
    b.lexemes = b.literal.map .char ∧ ∀ c ∈ b.literal, isMark c = false := by
  rcases b.readAs_cases with ⟨ht, -⟩ | ⟨-, hmark, hr⟩
  · exact absurd ht h
  · exact ⟨hr.lexemes_eq, hmark⟩

/-- A literal has no hole in it and comes to its end. -/
theorem lexemes_spec (b : Binding) :
    b.lexemes.filterMap Lexeme.hole? = [] ∧ ∀ l ∈ b.lexemes, l.isClosed = true := by
  by_cases h : b.isSqlNull = false ∧ b.IsText
  · rw [lexemes_of_text h.1 h.2]
    exact ⟨rfl, by simp [Lexeme.isClosed]⟩
  · rw [(lexemes_of_not_text h).1]
    refine ⟨?_, by simp [Lexeme.isClosed]⟩
    rw [List.filterMap_map, List.filterMap_eq_nil_iff]
    exact fun _ _ => rfl

end Binding

end BoundSql
