/-
How a computation that may fail comes to its result, and how two of them
compare.
-/
import BoundSql.Error

namespace BoundSql

variable {α β γ δ : Type}

theorem Except.bind_ok_iff {ε : Type} {x : Except ε α} {f : α → Except ε β} {b : β} :
    x >>= f = .ok b ↔ ∃ a, x = .ok a ∧ f a = .ok b := by
  cases x with
  | error e => simp [bind, Except.bind]
  | ok a => simp [bind, Except.bind]

theorem Except.bind_error_iff {ε : Type} {x : Except ε α} {f : α → Except ε β} {e : ε} :
    x >>= f = .error e ↔ x = .error e ∨ ∃ a, x = .ok a ∧ f a = .error e := by
  cases x with
  | error d => simp [bind, Except.bind]
  | ok a => simp [bind, Except.bind]

theorem Except.pure_ok_iff {ε : Type} {a b : α} : (pure a : Except ε α) = .ok b ↔ a = b := by
  simp [pure, Except.pure]

/-- Two computations end alike: with related errors, or with related results. -/
def AlikeBy (E : Error → Error → Prop) (R : α → β → Prop) : Except Error α → Except Error β → Prop
  | .ok a, .ok b => R a b
  | .error e, .error e' => E e e'
  | _, _ => False

namespace AlikeBy

variable {E : Error → Error → Prop} {R : α → β → Prop} {S : γ → δ → Prop}
variable {x : Except Error α} {y : Except Error β}

theorem bind (h : AlikeBy E R x y) {f : α → Except Error γ} {g : β → Except Error δ}
    (hf : ∀ a b, R a b → AlikeBy E S (f a) (g b)) : AlikeBy E S (x >>= f) (y >>= g) := by
  cases x with
  | error e => cases y with
    | error e' => exact h
    | ok b => exact h.elim
  | ok a => cases y with
    | error e' => exact h.elim
    | ok b => exact hf a b h

/-- A step both take alike. -/
theorem bind_same {x : Except Error α} (hE : ∀ e, E e e) {f : α → Except Error γ}
    {g : α → Except Error δ} (hf : ∀ a, AlikeBy E S (f a) (g a)) :
    AlikeBy E S (x >>= f) (x >>= g) := by
  cases x with
  | error e => exact hE e
  | ok a => exact hf a

theorem mono {Q : α → β → Prop} (h : AlikeBy E R x y) (hR : ∀ a b, x = .ok a → R a b → Q a b) :
    AlikeBy E Q x y := by
  cases x with
  | error e => cases y with
    | error e' => exact h
    | ok b => exact h.elim
  | ok a => cases y with
    | error e' => exact h.elim
    | ok b => exact hR a b rfl h

theorem of_ok {a : α} (h : AlikeBy E R x y) (hx : x = .ok a) : ∃ b, y = .ok b ∧ R a b := by
  subst hx
  cases y with
  | error e => exact h.elim
  | ok b => exact ⟨b, rfl, h⟩

/-- Two computations that end like a third one end alike. -/
theorem meet {P : γ → β → Prop} {z : Except Error γ} (h : AlikeBy E R x y) (h' : AlikeBy E P z y) :
    AlikeBy (fun _ _ => True) (fun a c => ∃ b, R a b ∧ P c b) x z := by
  cases y with
  | error e => cases x with
    | error => cases z with
      | error => trivial
      | ok c => exact h'.elim
    | ok a => exact h.elim
  | ok b => cases x with
    | error => exact h.elim
    | ok a => cases z with
      | error => exact h'.elim
      | ok c => exact ⟨b, h, h'⟩

end AlikeBy

/-- Two computations end alike: with the same error, or with related results. -/
abbrev Alike (R : α → β → Prop) : Except Error α → Except Error β → Prop := AlikeBy Eq R

theorem Alike.error_iff {R : α → β → Prop} {x : Except Error α} {y : Except Error β} {e : Error}
    (h : Alike R x y) : x = .error e ↔ y = .error e := by
  cases x with
  | error d => cases y with
    | error d' =>
      obtain rfl : d = d' := h
      simp
    | ok b => exact h.elim
  | ok a => cases y with
    | error d' => exact h.elim
    | ok b => simp

end BoundSql
