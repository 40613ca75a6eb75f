/-
Every test of a list of conditions is to be seen in the text of the list.

`Shown p ts ps` says that predicates `ps` have the tests `ts` in them, in
order. Lists and groups keep it, though a group without text is left out: where
there is a test there is text (`Test.Written`), so only a group without tests
goes.
-/
import BoundSql.Proofs.CriterionFacts
import BoundSql.Proofs.Occurrence
import BoundSql.Proofs.Operands
import Mathlib.Data.List.Forall2

namespace BoundSql

open Fragment (ofText)
open List (Forall₂)
open Text (InOrder Covered)

variable {p : TablePrefix}

/-! ## Tests that can be seen -/

/-- Conditions as they can be made, one by one and in groups. -/
inductive Criterion.Made : Criterion → Prop
  | single {c : Column} {op : Text} {operand : Option Operand} {j : Connective} {k : Clause}
      {r : Criterion} : make (.column c) op operand j k = .ok r → Made r
  | raw (f : Fragment) (j : Connective) (k : Clause) : Made (.raw f j k)
  | group (j : Connective) (k : Clause) (op : Text) {inner : List Criterion} :
      (∀ c ∈ inner, Made c) → Made (.group j k op inner)

/-- A test has something to see: its operator or, without one, its raw SQL. -/
def Test.Written : Test → Prop
  | .literal f => Text.blank f.inlined = false
  | .unary _ op | .compare _ op _ | .among _ op _ | .columns _ op _ => Text.blank op = false

theorem Criterion.mem_allTests {t : Test} {cs : List Criterion} :
    t ∈ allTests cs ↔ ∃ c ∈ cs, t ∈ c.tests := by
  induction cs with
  | nil => simp [allTests]
  | cons c cs ih => simp [allTests, ih]

/-- The tests of a condition that was made are raw SQL or have an operator. -/
theorem Criterion.Made.written {c : Criterion} (h : c.Made)
    (hraw : ∀ f, .literal f ∈ c.tests → Text.blank f.inlined = false) : ∀ t ∈ c.tests, t.Written := by
  induction h with
  | single hmake =>
    rcases make_cases hmake with ⟨inner, hfield, -⟩ | ⟨f, rfl⟩ | ⟨column, t, hop, ht, rfl⟩
    · cases hfield
    · intro t ht
      obtain rfl := List.mem_singleton.mp ht
      exact hraw f ht
    · intro u hu
      obtain rfl := List.mem_singleton.mp hu
      have hblank := Text.trim_ne_nil.mp hop
      rw [← Text.blank_trim, ← operator_testOf ht] at hblank
      cases u with
      | literal f => exact hraw f hu
      | _ => exact hblank
  | raw f j k =>
    intro t ht
    obtain rfl := List.mem_singleton.mp ht
    exact hraw f ht
  | group j k op _ ih =>
    intro t ht
    obtain ⟨c, hc, htc⟩ := mem_allTests.mp ht
    exact ih c hc (fun f hf => hraw f (mem_allTests.mpr ⟨c, hc, hf⟩)) t htc

theorem blank_of_operator {a op b : Text} (h : Text.blank op = false) :
    Text.blank (a ++ op ++ b) = false := by
  simp [Text.blank_append, h]

/-- What a test with something to see is written as can be seen. -/
theorem Test.blank_fragment {t : Test} (ht : t.Written) {f : Fragment} (h : t.fragment p = .ok f) :
    Text.blank f.sql = false := by
  cases t with
  | literal g =>
    cases h
    exact ht
  | unary c op =>
    cases h
    simpa using blank_of_operator (a := c.text p ++ " ") (b := []) ht
  | compare c op v =>
    cases h
    simpa using blank_of_operator (a := c.text p ++ " ") (b := " " ++ v.fragment.sql) ht
  | columns c op other =>
    cases h
    simpa using blank_of_operator (a := c.text p ++ " ") (b := " " ++ other.text p) ht
  | among c op vs =>
    simp only [Test.fragment] at h
    rcases listPredicate_cases (c.text p) op vs with
      ⟨low, high, -, hf⟩ | ⟨-, hf⟩ | ⟨-, hf⟩ | hf <;> rw [hf] at h <;> cases h
    · simpa using blank_of_operator (a := c.text p ++ " ")
        (b := " " ++ low.fragment.sql ++ " AND " ++ high.fragment.sql) ht
    · cases hasNot op <;> rfl
    · simpa using blank_of_operator (a := c.text p ++ " ")
        (b := " (" ++ (Fragment.joined ", " (vs.map Value.fragment)).sql ++ ")") ht

/-! ## Tests in text -/

/-- The texts tests are written as, without blanks at their ends. -/
def TestTexts (p : TablePrefix) (ts : List Test) (texts : List Text) : Prop :=
  Forall₂ (fun t text => ∃ f, t.fragment p = .ok f ∧ text = Text.trim f.sql) ts texts

theorem TestTexts.solid {ts : List Test} {texts : List Text} (h : TestTexts p ts texts)
    (hts : ∀ t ∈ ts, t.Written) : ∀ text ∈ texts, InOrder.Solid text := by
  induction h with
  | nil => simp
  | cons hf _ ih =>
    obtain ⟨f, hf, rfl⟩ := hf
    intro text htext
    rcases List.mem_cons.mp htext with rfl | htext
    · exact InOrder.solid_trim (Test.blank_fragment (hts _ (by simp)) hf)
    · exact ih (fun t ht => hts t (by simp [ht])) text htext

/-- Predicates have the tests `ts` in their texts, in order. There are
predicates only where there are tests, and all of them can be seen. -/
structure Shown (p : TablePrefix) (ts : List Test) (ps : List Predicate) : Prop where
  covered : ∃ texts, TestTexts p ts texts ∧ Covered texts (ps.map (·.fragment.sql))
  visible : ∀ q ∈ ps, Text.blank q.fragment.sql = false
  empty : ts = [] → ps = []

namespace Shown

variable {ts us : List Test} {ps qs : List Predicate}

theorem nil : Shown p [] [] := ⟨⟨[], .nil, .nil⟩, by simp, fun _ => rfl⟩

theorem append (h : Shown p ts ps) (h' : Shown p us qs) : Shown p (ts ++ us) (ps ++ qs) where
  covered := by
    obtain ⟨texts, ht, hc⟩ := h.covered
    obtain ⟨texts', ht', hc'⟩ := h'.covered
    refine ⟨texts ++ texts', List.rel_append ht ht', ?_⟩
    rw [List.map_append]
    exact hc.append hc'
  visible q hq := (List.mem_append.mp hq).elim (h.visible q) (h'.visible q)
  empty hts := by
    obtain ⟨hts, hus⟩ := List.append_eq_nil_iff.mp hts
    rw [h.empty hts, h'.empty hus, List.append_nil]

/-- One predicate that has tests in it. -/
theorem single {q : Predicate} {texts : List Text} (ht : TestTexts p ts texts)
    (hq : InOrder texts q.fragment.sql) (hv : Text.blank q.fragment.sql = false) (hts : ts ≠ []) :
    Shown p ts [q] where
  covered := ⟨texts ++ [], by simpa using ht, .cons hq .nil⟩
  visible r hr := by obtain rfl := List.mem_singleton.mp hr; exact hv
  empty h := absurd h hts

theorem eq_nil (h : Shown p ts []) : ts = [] := by
  obtain ⟨texts, ht, hc⟩ := h.covered
  cases hc
  cases ht
  rfl

theorem covered_map {texts : List Text} {ws : Predicate → Text}
    (hws : ∀ q, ∃ a, ws q = a ++ q.fragment.sql)
    (h : Covered texts (ps.map (·.fragment.sql))) : Covered texts (ps.map ws) := by
  induction ps generalizing texts with
  | nil => exact h
  | cons q ps ih =>
    cases h with
    | cons hq hrest =>
      obtain ⟨a, ha⟩ := hws q
      exact .cons (ha ▸ hq.append_left a) (ih hrest)

/-- A list has all its tests in its text, and no text only without tests. -/
theorem conjoined (h : Shown p ts ps) (hts : ∀ t ∈ ts, t.Written) :
    (∃ texts, TestTexts p ts texts ∧ InOrder texts (BoundSql.conjoined ps).sql) ∧
      ((BoundSql.conjoined ps).sql = [] ↔ ts = []) := by
  obtain ⟨texts, ht, hc⟩ := h.covered
  cases ps with
  | nil =>
    obtain rfl := h.eq_nil
    cases ht
    exact ⟨⟨[], .nil, trivial⟩, by simp [BoundSql.conjoined, Fragment.empty]⟩
  | cons q rest =>
    have hne : ts ≠ [] := fun hts => List.cons_ne_nil q rest (h.empty hts)
    have hfirst : ∃ a, q.first.sql = a ++ q.fragment.sql := by
      unfold Predicate.first
      split
      · exact ⟨_, rfl⟩
      · exact ⟨[], rfl⟩
    have hnext : ∀ r : Predicate, ∃ a, r.next.sql = a ++ r.fragment.sql := fun r => ⟨_, rfl⟩
    obtain ⟨a, ha⟩ := hfirst
    have hcovered : Covered texts ((q.first :: rest.map Predicate.next).map Fragment.sql) := by
      cases hc with
      | cons hq hrest =>
        rw [List.map_cons, List.map_map]
        exact .cons (ha ▸ hq.append_left a) (covered_map hnext hrest)
    refine ⟨⟨texts, ht, ?_⟩, fun hnil => absurd (Text.trim_eq_nil.mp hnil) ?_, fun h => absurd h hne⟩
    · refine InOrder.trim (ht.solid hts) ?_
      rw [Fragment.sql_joined]
      exact hcovered.joined " "
    · have hblank : Text.blank q.first.sql = false := by
        rw [ha, Text.blank_append, h.visible q (by simp), Bool.and_false]
      cases rest with
      | nil => simp [Fragment.joined, hblank]
      | cons r rest => simp [Fragment.joined, Text.blank_append, hblank]

/-- A group is left out only if it has no tests. -/
theorem group (h : Shown p ts ps) (hts : ∀ t ∈ ts, t.Written) (j : Connective) :
    Shown p ts ((groupPredicate (BoundSql.conjoined ps)).map (⟨j, ·⟩)).toList := by
  obtain ⟨⟨texts, ht, hin⟩, hempty⟩ := h.conjoined hts
  unfold groupPredicate
  split
  next hnil =>
    obtain rfl := hempty.mp (List.isEmpty_iff.mp hnil)
    exact .nil
  next hnil =>
    refine .single ht ((hin.append_left "(").append_right ")") ?_
      fun hts => hnil (List.isEmpty_iff.mpr (hempty.mpr hts))
    simp only [Fragment.sql_append, Text.blank_append]
    rfl

end Shown

mutual

theorem Criterion.predicate?_shown : ∀ {c : Criterion} {r : Option Predicate},
    c.predicate? p = .ok r → (∀ t ∈ c.tests, t.Written) → Shown p c.tests r.toList
  | .leaf j k t, r, h, hts => by
    simp only [Criterion.predicate?, Except.bind_ok_iff, Except.pure_ok_iff] at h
    obtain ⟨f, hf, rfl⟩ := h
    exact .single (.cons ⟨f, hf, rfl⟩ .nil) (InOrder.trim_self f.sql)
      (Test.blank_fragment (hts t (by simp [Criterion.tests])) hf) (by simp [Criterion.tests])
  | .group j k op inner, r, h, hts => by
    simp only [Criterion.predicate?, Except.bind_ok_iff, Except.pure_ok_iff] at h
    obtain ⟨ps, hps, rfl⟩ := h
    exact (Criterion.predicates_shown hps hts).group hts j

theorem Criterion.predicates_shown : ∀ {cs : List Criterion} {ps : List Predicate},
    Criterion.predicates p cs = .ok ps → (∀ t ∈ Criterion.allTests cs, t.Written) →
      Shown p (Criterion.allTests cs) ps
  | [], ps, h, _ => by
    cases h
    exact .nil
  | c :: rest, ps, h, hts => by
    simp only [Criterion.predicates, Except.bind_ok_iff, Except.pure_ok_iff] at h
    obtain ⟨r, hr, qs, hqs, rfl⟩ := h
    simp only [Criterion.allTests, List.mem_append] at hts
    exact (Criterion.predicate?_shown hr fun t ht => hts t (.inl ht)).append
      (Criterion.predicates_shown hqs fun t ht => hts t (.inr ht))

end

/-- Conditions have all their tests in their text, in order, and no text only
if there are no tests. -/
theorem Criterion.render_shown {cs : List Criterion} {f : Fragment}
    (h : Criterion.render p cs = .ok f) (hts : ∀ t ∈ Criterion.allTests cs, t.Written) :
    (∃ texts, TestTexts p (Criterion.allTests cs) texts ∧ InOrder texts f.sql) ∧
      (f.sql = [] ↔ Criterion.allTests cs = []) := by
  simp only [Criterion.render, Except.bind_ok_iff, Except.pure_ok_iff] at h
  obtain ⟨ps, hps, rfl⟩ := h
  exact (Criterion.predicates_shown hps hts).conjoined hts

end BoundSql
