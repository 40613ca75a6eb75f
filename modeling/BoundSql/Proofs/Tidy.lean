/-
What a caller has to keep for placeholders and bindings to line up: a percent
sign only in raw SQL, and in raw SQL a binding for every placeholder.

The texts made from such names hold no placeholder, so all placeholders of a
query come from its values. A percent sign that stands for itself may still be
among them, in raw SQL, which is why they are not just texts without one.
-/
import BoundSql.Proofs.Rules
import BoundSql.Proofs.Selectors
import BoundSql.Proofs.SubstitutionFacts

namespace BoundSql

/-! ## The rules -/

/-- Every placeholder of a fragment has a binding. -/
def Fragment.Filled (f : Fragment) : Prop := (placeholders f.sql).length ≤ f.bindings.length

/-- No percent sign in the prefix. -/
def TablePrefix.Tidy (p : TablePrefix) : Prop := ∀ t ∈ p.text, '%' ∉ t

/-- No percent sign in a name or in a part of a selector, and raw SQL filled. -/
def Column.Tidy : Column → Prop
  | .name t => '%' ∉ t
  | .raw f => f.Filled
  | .json s => '%' ∉ s.column ∧ ∀ node ∈ s.nodes, '%' ∉ node

def Value.Tidy : Value → Prop
  | .raw f => f.Filled
  | .bound _ | .plain _ => True

/-- The rules placeholders and bindings line up under. -/
def Rules.tidy : Rules where
  word t := '%' ∉ t
  column := Column.Tidy
  value := Value.Tidy
  raw := Fragment.Filled

/-- A group is no column, so nothing is asked of it. -/
abbrev Field.Tidy (field : Field) : Prop := field.Obeys .tidy

abbrev Row.Tidy (row : Row) : Prop := row.Obeys .tidy

/-- The rules hold in every clause. -/
abbrev Statements.Tidy (st : Statements) : Prop := st.Obeys .tidy

/-! The rules can be checked. -/

instance (f : Fragment) : Decidable f.Filled := inferInstanceAs (Decidable (_ ≤ _))

instance (p : TablePrefix) : Decidable p.Tidy := inferInstanceAs (Decidable (∀ t ∈ p.text, _))

instance : DecidablePred Column.Tidy
  | .name t => inferInstanceAs (Decidable ('%' ∉ t))
  | .raw f => inferInstanceAs (Decidable f.Filled)
  | .json s => inferInstanceAs (Decidable ('%' ∉ s.column ∧ ∀ node ∈ s.nodes, '%' ∉ node))

instance : DecidablePred Value.Tidy
  | .raw f => inferInstanceAs (Decidable f.Filled)
  | .bound _ | .plain _ => .isTrue trivial

instance : DecidablePred Rules.tidy.word := fun t => inferInstanceAs (Decidable ('%' ∉ t))
instance : DecidablePred Rules.tidy.column := inferInstanceAs (DecidablePred Column.Tidy)
instance : DecidablePred Rules.tidy.value := inferInstanceAs (DecidablePred Value.Tidy)
instance : DecidablePred Rules.tidy.raw := inferInstanceAs (DecidablePred Fragment.Filled)

theorem Statements.sample_tidy : sample.Tidy where
  tables := by decide
  selects := by decide
  filters := by decide
  havings := by decide
  joins := by decide
  sortKeys := by decide
  groupings := by decide
  onDuplicate := by decide

theorem Row.sample_tidy : Row.Tidy sample := by decide

/-! ## Characters of names -/

theorem Text.mem_joined {c : Char} {s : Text} {ts : List Text} (h : c ∈ joined s ts) :
    c ∈ s ∨ ∃ t ∈ ts, c ∈ t := by
  induction ts using joined.induct with
  | case1 => simp [joined] at h
  | case2 t => exact .inr ⟨t, by simp, h⟩
  | case3 t u rest ih =>
    rw [joined, List.mem_append, List.mem_append] at h
    rcases h with (h | h) | h
    · exact .inr ⟨t, by simp, h⟩
    · exact .inl h
    · rcases ih h with hs | ⟨x, hx, hc⟩
      · exact .inl hs
      · exact .inr ⟨x, List.mem_cons_of_mem t hx, hc⟩

/-- The parts of a selector are made of the characters it is read from. -/
theorem Selector.mem_of_parse {t : Text} {s : Selector} (h : parse t = .ok s) {c : Char} :
    (c ∈ s.column → c ∈ t) ∧ ∀ node ∈ s.nodes, c ∈ node → c ∈ t := by
  obtain ⟨-, parts, rfl, hparts⟩ := parse_eq_ok_iff.mp h
  have hpart : ∀ part ∈ s.column :: s.nodes, c ∈ part → c ∈ Text.joined "->" parts := by
    rw [← hparts]
    refine List.forall_mem_map.mpr fun part hp hc => ?_
    exact ((Text.infix_trim part).trans (Text.infix_joined "->" hp)).subset hc
  exact List.forall_mem_cons.mp hpart

theorem TablePrefix.mem_table {p : TablePrefix} {name : Text} {c : Char} (h : c ∈ p.table name) :
    (∃ t ∈ p.text, c ∈ t) ∨ c ∈ name := by
  rcases List.mem_append.mp h with h | h
  · cases ht : p.text with
    | none => simp [ht] at h
    | some t => exact .inl ⟨t, rfl, by simpa [ht] using h⟩
  · exact .inr h

theorem TablePrefix.mem_field {p : TablePrefix} {name : Text} {c : Char} (h : c ∈ p.field name) :
    (∃ t ∈ p.text, c ∈ t) ∨ c ∈ name := by
  unfold field at h
  split at h
  next => exact .inr h
  next t ht =>
    split at h
    · exact (List.mem_append.mp h).imp (fun hc => ⟨t, ht, hc⟩) id
    · exact .inr h

/-! ## Text without placeholders -/

theorem Fragment.Filled.placeholders_inlined {f : Fragment} (h : f.Filled) :
    placeholders f.inlined = [] := by
  rw [Fragment.placeholders_inlined, List.drop_eq_nil_iff]
  exact h

theorem TablePrefix.not_mem_table {p : TablePrefix} (hp : p.Tidy) {name : Text} (h : '%' ∉ name) :
    '%' ∉ p.table name := fun hm => (mem_table hm).elim (fun ⟨t, ht, hc⟩ => hp t ht hc) h

theorem TablePrefix.not_mem_field {p : TablePrefix} (hp : p.Tidy) {name : Text} (h : '%' ∉ name) :
    '%' ∉ p.field name := fun hm => (mem_field hm).elim (fun ⟨t, ht, hc⟩ => hp t ht hc) h

theorem Selector.not_mem_expression {p : TablePrefix} (hp : p.Tidy) {s : Selector}
    (hc : '%' ∉ s.column) (hn : ∀ node ∈ s.nodes, '%' ∉ node) : '%' ∉ s.expression p := by
  have hfield := TablePrefix.not_mem_field hp hc
  have hnodes : '%' ∉ Text.joined "." s.nodes := fun h =>
    (Text.mem_joined h).elim (by decide) fun ⟨node, hnode, hm⟩ => hn node hnode hm
  unfold expression extract path
  simp only [List.mem_append, not_or]
  refine ⟨⟨?_, ⟨⟨⟨?_, hfield⟩, ?_⟩, ?_, hnodes⟩, ?_⟩, ?_⟩ <;> simp

theorem Column.placeholders_text {p : TablePrefix} (hp : p.Tidy) {c : Column} (hc : c.Tidy) :
    placeholders (c.text p) = [] := by
  cases c with
  | name t =>
    refine placeholders_of_not_mem ?_
    cases hs : Selector.parse t with
    | ok s =>
      have hmem := Selector.mem_of_parse hs (c := '%')
      simp only [Column.text, hs]
      exact Selector.not_mem_expression hp (mt hmem.1 hc) fun node hn => mt (hmem.2 node hn) hc
    | error e =>
      simp only [Column.text, hs]
      exact TablePrefix.not_mem_field hp hc
  | raw f => exact Fragment.Filled.placeholders_inlined hc
  | json s => exact placeholders_of_not_mem (Selector.not_mem_expression hp hc.1 hc.2)

end BoundSql
