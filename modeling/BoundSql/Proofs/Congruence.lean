/-
What holds of the parts of statements holds of the queries made of them.

A relation between fragments is a `Congruence` for an edit if it goes through
the ways the compiler puts fragments together, and holds between what the edit
takes and what it gives. `Congruence.run` is the one walk through the compiler:
statements and the same statements edited both fail, or they compile to related
queries.

Two fragments can only be put together where the second one begins with a
character that no literal and no placeholder begins with (`Text.leads`), or
behind constant text (`Text.inert`). The compiler always has such text between
two parts that callers have a hand in.
-/
import BoundSql.Proofs.Edits
import BoundSql.Proofs.ExceptFacts
import BoundSql.Proofs.SubstitutionFacts
import Mathlib.Data.List.Forall2

namespace BoundSql

open Fragment (ofText)
open List (Forall₂)

/-! ## Text between parts -/

namespace Text

/-- Text without percent signs and quotes. -/
def inert (t : Text) : Bool := t.all fun c => c != '%' && c != '\x27' && c != '\x22'

/-- The characters the compiler puts behind what callers give. -/
def isGap (c : Char) : Bool := c == ' ' || c == ',' || c == ')' || c == '='

/-- Text that is empty or begins with a gap. -/
def leads : Text → Bool
  | [] => true
  | c :: _ => isGap c

/-- Constant text that can stand between any two parts. -/
def isSeparator (t : Text) : Bool := inert t && leads t && !t.isEmpty

theorem inert_append {a b : Text} : inert (a ++ b) = (inert a && inert b) := by simp [inert]

theorem inert_natText (n : Nat) : inert (natText n) = true := by
  refine List.all_eq_true.mpr fun c hc => ?_
  have hdigit := isDigit_of_mem_natText hc
  simp only [Bool.and_eq_true, bne_iff_ne]
  refine ⟨⟨?_, ?_⟩, ?_⟩ <;> rintro rfl <;> revert hdigit <;> decide

theorem leads_append {a b : Text} (ha : leads a = true) (hb : leads b = true) :
    leads (a ++ b) = true := by
  cases a with
  | nil => exact hb
  | cons => exact ha

theorem inert_of_isSeparator {s : Text} (h : isSeparator s = true) : inert s = true := by
  simp only [isSeparator, Bool.and_eq_true] at h
  exact h.1.1

theorem leads_of_isSeparator {s : Text} (h : isSeparator s = true) (t : Text) :
    leads (s ++ t) = true := by
  cases s with
  | nil => simp [isSeparator] at h
  | cons c s =>
    simp only [isSeparator, Bool.and_eq_true] at h
    exact h.1.2

theorem not_mem_of_inert {t : Text} (h : inert t = true) : '%' ∉ t := fun hm => by
  have hc := List.all_eq_true.mp h _ hm
  revert hc
  decide

theorem attaches_of_leads {t : Text} (h : leads t = true) : t.attaches = false := by
  cases t with
  | nil => rfl
  | cons c t =>
    simp only [attaches, Bool.or_eq_false_iff, beq_eq_false_iff_ne]
    refine ⟨⟨⟨?_, ?_⟩, ?_⟩, ?_⟩ <;> rintro rfl <;> simp [leads, isGap] at h

end Text

/-! ## Texts as fragments -/

namespace Fragment

theorem append_texts (f : Fragment) (a b c : Text) :
    f ++ ofText a ++ ofText b ++ ofText c = f ++ ofText (a ++ b ++ c) := by
  rw [append_assoc, append_assoc, ofText_append, ofText_append, append_assoc]

theorem ofText_joined (s : Text) (ts : List Text) :
    ofText (Text.joined s ts) = joined s (ts.map ofText) := by
  induction ts using Text.joined.induct with
  | case1 => rfl
  | case2 => rfl
  | case3 t u rest ih =>
    rw [List.map_cons] at ih
    rw [List.map_cons, List.map_cons, joined, ← ih]
    rfl

end Fragment

/-! ## Relations that go through the compiler -/

variable {p : TablePrefix} {R : Rules} {e : Edit} {S : Fragment → Fragment → Prop}
variable {E : Error → Error → Prop}

/-- A relation between fragments that the compiler keeps, for what obeys rules
and what an edit makes of it. Errors may differ in the text of a column. -/
structure Congruence (p : TablePrefix) (R : Rules) (e : Edit) (S : Fragment → Fragment → Prop)
    (E : Error → Error → Prop) : Prop where
  empty : S .empty .empty
  opening {s : Text} {f g : Fragment} : s.inert = true → S f g → S (ofText s ++ f) (ofText s ++ g)
  append {f f' g g' : Fragment} : S f f' → S g g' → g.sql.leads = true → g'.sql.leads = true →
    S (f ++ g) (f' ++ g')
  trim {f g : Fragment} : S f g → S f.trim g.trim
  isEmpty_eq {f g : Fragment} : S f g → f.sql.isEmpty = g.sql.isEmpty
  word {t : Text} : R.word t → S (ofText t) (ofText t)
  table {t : Text} : R.word t → S (ofText (p.table t)) (ofText (p.table t))
  column {c : Column} : R.column c → S (ofText (c.text p)) (ofText ((c.edited e).text p))
  raw {f : Fragment} : R.raw f → S (ofText f.inlined) (ofText (e.raw f).inlined)
  value {v : Value} : R.value v → S v.fragment (e.value v).fragment
  error_refl (err : Error) : E err err
  error {op t u : Text} : S (ofText t) (ofText u) →
    E (.criterion (.twoValuesNeeded op t)) (.criterion (.twoValuesNeeded op u))

namespace Congruence

/-! ### Putting together -/

theorem constant (K : Congruence p R e S E) {s : Text} (h : s.inert = true) :
    S (ofText s) (ofText s) := by
  have hs := K.opening h K.empty
  rwa [Fragment.append_empty] at hs

variable {f f' g g' : Fragment} {s : Text}

theorem behind (K : Congruence p R e S E) (hs : s.isSeparator = true) (hf : S f f') :
    S (f ++ ofText s) (f' ++ ofText s) := by
  have hleads := Text.leads_of_isSeparator hs []
  rw [List.append_nil] at hleads
  exact K.append hf (K.constant (Text.inert_of_isSeparator hs)) hleads hleads

theorem around (K : Congruence p R e S E) (hs : s.isSeparator = true) (hf : S f f')
    (hg : S g g') : S (f ++ ofText s ++ g) (f' ++ ofText s ++ g') := by
  rw [Fragment.append_assoc, Fragment.append_assoc]
  exact K.append hf (K.opening (Text.inert_of_isSeparator hs) hg)
    (Text.leads_of_isSeparator hs g.sql) (Text.leads_of_isSeparator hs g'.sql)

theorem joined (K : Congruence p R e S E) (hs : s.isSeparator = true) {fs gs : List Fragment}
    (h : Forall₂ S fs gs) : S (Fragment.joined s fs) (Fragment.joined s gs) := by
  induction fs using Fragment.joined.induct generalizing gs with
  | case1 => cases h; exact K.empty
  | case2 f => obtain _ | ⟨hf, ⟨⟩⟩ := h; exact hf
  | case3 f g rest ih =>
    obtain _ | ⟨hf, hrest⟩ := h
    cases hrest with
    | cons hg hr => exact K.around hs hf (ih (.cons hg hr))

theorem forall₂_map {α β : Type} {Q : α → β → Prop} {γ : Type} {xs : List γ} {a : γ → α} {b : γ → β}
    (h : ∀ x ∈ xs, Q (a x) (b x)) : Forall₂ Q (xs.map a) (xs.map b) := by
  rw [List.forall₂_map_left_iff, List.forall₂_map_right_iff, List.forall₂_same]
  exact h

/-- Texts in a list, item by item. -/
theorem joined_texts (K : Congruence p R e S E) (hs : s.isSeparator = true) {γ : Type}
    {xs : List γ} {a b : γ → Text} (h : ∀ x ∈ xs, S (ofText (a x)) (ofText (b x))) :
    S (ofText (Text.joined s (xs.map a))) (ofText (Text.joined s (xs.map b))) := by
  rw [Fragment.ofText_joined, Fragment.ofText_joined, List.map_map, List.map_map]
  exact K.joined hs (forall₂_map h)

theorem joined_values (K : Congruence p R e S E) (hs : s.isSeparator = true) {vs : List Value}
    (h : ∀ v ∈ vs, R.value v) :
    S (Fragment.joined s (vs.map Value.fragment))
      (Fragment.joined s ((vs.map e.value).map Value.fragment)) := by
  rw [List.map_map]
  exact K.joined hs (forall₂_map fun v hv => K.value (h v hv))

/-! ### Conditions -/

/-- A column and an operator. -/
theorem named (K : Congruence p R e S E) {t u op : Text} (ht : S (ofText t) (ofText u))
    (hop : R.word op) : S (ofText (t ++ " " ++ op)) (ofText (u ++ " " ++ op)) :=
  K.around rfl ht (K.word hop)

theorem listed (K : Congruence p R e S E) {t u : Text} (ht : S (ofText t) (ofText u))
    {vs : List Value} (h : ∀ v ∈ vs, R.value v) :
    S (ofText (t ++ " (") ++ Fragment.joined ", " (vs.map Value.fragment) ++ ofText ")")
      (ofText (u ++ " (") ++ Fragment.joined ", " ((vs.map e.value).map Value.fragment) ++
        ofText ")") :=
  K.behind rfl (K.around rfl ht (K.joined_values rfl h))

theorem between (K : Congruence p R e S E) {t u : Text} (ht : S (ofText t) (ofText u))
    {low high : Value} (hlow : R.value low) (hhigh : R.value high) :
    S (ofText (t ++ " ") ++ low.fragment ++ ofText " AND " ++ high.fragment)
      (ofText (u ++ " ") ++ (e.value low).fragment ++ ofText " AND " ++ (e.value high).fragment) :=
  K.around rfl (K.around rfl ht (K.value hlow)) (K.value hhigh)

theorem listPredicate (K : Congruence p R e S E) {t u op : Text} (ht : S (ofText t) (ofText u))
    (hop : R.word op) {vs : List Value} (h : ∀ v ∈ vs, R.value v) :
    AlikeBy E S (listPredicate t op vs) (listPredicate u op (vs.map e.value)) := by
  have hnamed := K.named ht hop
  have hlisted := K.listed hnamed h
  cases hb : hasBetween op with
  | true =>
    match vs, h, hlisted with
    | [], _, _ =>
      simp only [BoundSql.listPredicate, hb, List.map_nil]
      exact K.error ht
    | [low, high], h, _ =>
      simp only [BoundSql.listPredicate, hb, List.map_cons, List.map_nil]
      exact K.between hnamed (h low (by simp)) (h high (by simp))
    | [_], _, hlisted | _ :: _ :: _ :: _, _, hlisted =>
      simp only [BoundSql.listPredicate, hb, List.map_cons, List.map_nil]
      exact hlisted
  | false =>
    match vs, hlisted with
    | [], _ =>
      simp only [BoundSql.listPredicate, hb, List.map_nil]
      refine K.constant ?_
      split <;> rfl
    | _ :: _, hlisted =>
      simp only [BoundSql.listPredicate, hb, List.map_cons]
      exact hlisted

theorem test (K : Congruence p R e S E) {t : Test} (h : t.Obeys R) :
    AlikeBy E S (t.fragment p) ((t.edited e).fragment p) := by
  cases t with
  | literal f => exact K.raw h
  | unary c op => exact K.named (K.column h.1) h.2
  | compare c op v => exact K.around rfl (K.named (K.column h.1) h.2.1) (K.value h.2.2)
  | among c op vs => exact K.listPredicate (K.column h.1) h.2.1 h.2.2
  | columns c op other => exact K.around rfl (K.named (K.column h.1) h.2.1) (K.column h.2.2)

/-! ### Lists and groups -/

/-- Predicates joined the same way, with related fragments. -/
structure Predicates (S : Fragment → Fragment → Prop) (q r : Predicate) : Prop where
  connective : q.connective = r.connective
  fragment : S q.fragment r.fragment

theorem first (K : Congruence p R e S E) {q r : Predicate} (h : Predicates S q r) :
    S q.first r.first := by
  unfold Predicate.first
  rw [h.connective]
  split
  · exact K.opening rfl h.fragment
  · exact h.fragment

theorem next (K : Congruence p R e S E) {q r : Predicate} (h : Predicates S q r) :
    S q.next r.next := by
  unfold Predicate.next
  rw [h.connective]
  exact K.opening (by cases r.connective <;> rfl) h.fragment

theorem conjoined (K : Congruence p R e S E) {ps qs : List Predicate}
    (h : Forall₂ (Predicates S) ps qs) : S (conjoined ps) (conjoined qs) := by
  cases h with
  | nil => exact K.empty
  | cons hq hrest =>
    refine K.trim (K.joined rfl (.cons (K.first hq) ?_))
    rw [List.forall₂_map_left_iff, List.forall₂_map_right_iff]
    exact hrest.imp fun _ _ hr => K.next hr

theorem groupPredicate (K : Congruence p R e S E) (h : S f g) (j : Connective) :
    Forall₂ (Predicates S) ((groupPredicate f).map (⟨j, ·⟩)).toList
      ((groupPredicate g).map (⟨j, ·⟩)).toList := by
  unfold BoundSql.groupPredicate
  rw [K.isEmpty_eq h]
  split
  · exact .nil
  · exact .cons ⟨rfl, K.behind rfl (K.opening rfl h)⟩ .nil

mutual

theorem predicate? (K : Congruence p R e S E) : ∀ {c : Criterion}, (∀ t ∈ c.tests, t.Obeys R) →
    AlikeBy E (fun r s => Forall₂ (Predicates S) r.toList s.toList) (c.predicate? p)
      ((c.edited e).predicate? p)
  | .leaf j k t, h => by
    simp only [Criterion.edited, Criterion.predicate?]
    refine (K.test (h t (by simp [Criterion.tests]))).bind fun f g hfg => ?_
    exact .cons ⟨rfl, hfg⟩ .nil
  | .group j k op inner, h => by
    simp only [Criterion.edited, Criterion.predicate?]
    refine (K.predicates h).bind fun ps qs hpq => ?_
    exact K.groupPredicate (K.conjoined hpq) j

theorem predicates (K : Congruence p R e S E) : ∀ {cs : List Criterion}, Criterion.Obeys R cs →
    AlikeBy E (Forall₂ (Predicates S)) (Criterion.predicates p cs)
      (Criterion.predicates p (Criterion.allEdited e cs))
  | [], _ => Forall₂.nil
  | c :: rest, h => by
    simp only [Criterion.Obeys, Criterion.allTests, List.mem_append] at h
    simp only [Criterion.allEdited, Criterion.predicates]
    refine (K.predicate? fun t ht => h t (.inl ht)).bind fun r s hrs => ?_
    refine (K.predicates fun t ht => h t (.inr ht)).bind fun ps qs hpq => ?_
    exact List.rel_append hrs hpq

end

theorem render (K : Congruence p R e S E) {cs : List Criterion} (h : Criterion.Obeys R cs) :
    AlikeBy E S (Criterion.render p cs) (Criterion.render p (Criterion.allEdited e cs)) :=
  (K.predicates h).bind fun _ _ hpq => K.conjoined hpq

/-! ### Clauses -/

theorem withName (K : Congruence p R e S E) {t u : Text} (h : S (ofText t) (ofText u))
    {asName : Option Text} (hn : ∀ name ∈ asName, R.word name) :
    S (ofText (withName t asName)) (ofText (withName u asName)) := by
  cases asName with
  | none => exact h
  | some name =>
    simp only [BoundSql.withName]
    split
    · exact h
    · exact K.around rfl h (K.word (hn name rfl))

theorem tableRef (K : Congruence p R e S E) {t : TableRef} (h : t.Obeys R) :
    S (ofText (t.text p)) (ofText ((t.edited e).text p)) := by
  obtain ⟨source, asName⟩ := t
  cases source with
  | named name => exact K.withName (K.table h.source) h.asName
  | raw f => exact K.withName (K.raw h.source) h.asName

theorem sortKey (K : Congruence p R e S E) {k : SortKey} (h : R.column k.column) :
    S (ofText (k.text p)) (ofText ((k.edited e).text p)) := by
  refine K.around rfl (K.column h) (K.constant ?_)
  cases k.direction <;> rfl

theorem leads_conditionClause (hs : s.isSeparator = true) (f : Fragment) :
    (conditionClause s f).sql.leads = true := by
  unfold conditionClause
  split
  · rfl
  · exact Text.leads_of_isSeparator hs f.sql

theorem leads_listClause (hs : s.isSeparator = true) (items : List Text) :
    (listClause s items).leads = true := by
  unfold listClause
  split
  · rfl
  · exact Text.leads_of_isSeparator hs _

theorem leads_numberClause (hs : s.isSeparator = true) (n : Option UInt64) :
    (numberClause s n).leads = true := by
  cases n with
  | none => rfl
  | some n => exact Text.leads_of_isSeparator hs _

/-- A clause of conditions behind another part. -/
theorem conditionClause (K : Congruence p R e S E) (hs : s.isSeparator = true) (hf : S f f')
    (hg : S g g') : S (f ++ conditionClause s g) (f' ++ conditionClause s g') := by
  refine K.append hf ?_ (leads_conditionClause hs g) (leads_conditionClause hs g')
  unfold BoundSql.conditionClause
  rw [K.isEmpty_eq hg]
  split
  · exact K.empty
  · exact K.opening (Text.inert_of_isSeparator hs) hg

/-- A clause that lists the texts of what is edited behind another part. -/
theorem listClause (K : Congruence p R e S E) (hs : s.isSeparator = true) (hf : S f f')
    {γ : Type} {xs : List γ} {a : γ → Text} {b : γ → γ}
    (h : ∀ x ∈ xs, S (ofText (a x)) (ofText (a (b x)))) :
    S (f ++ ofText (listClause s (xs.map a))) (f' ++ ofText (listClause s ((xs.map b).map a))) := by
  refine K.append hf ?_ (leads_listClause hs _) (leads_listClause hs _)
  unfold BoundSql.listClause
  rw [List.map_map, List.isEmpty_map, List.isEmpty_map]
  split
  · exact K.empty
  · exact K.opening (Text.inert_of_isSeparator hs) (K.joined_texts rfl h)

/-- A clause with a number behind another part. -/
theorem numberClause (K : Congruence p R e S E) (hs : s.isSeparator = true) (hf : S f f')
    (n : Option UInt64) : S (f ++ ofText (numberClause s n)) (f' ++ ofText (numberClause s n)) := by
  refine K.append hf (K.constant ?_) (leads_numberClause hs n) (leads_numberClause hs n)
  cases n with
  | none => rfl
  | some n =>
    rw [BoundSql.numberClause, Text.inert_append, Text.inert_of_isSeparator hs, Text.inert_natText]
    rfl

theorem join (K : Congruence p R e S E) {j : Join} (h : j.Obeys R) :
    AlikeBy E (fun f g => S f g ∧ f.sql.leads = true ∧ g.sql.leads = true) (j.fragment p)
      ((j.edited e).fragment p) := by
  refine (K.render h.conditions).bind fun f g hfg => ⟨?_, rfl, rfl⟩
  refine K.conditionClause rfl (K.opening ?_ (K.tableRef h.table)) hfg
  cases j.kind <;> rfl

theorem joins (K : Congruence p R e S E) {js : List Join} (h : ∀ j ∈ js, j.Obeys R) :
    AlikeBy E (fun f g => S f g ∧ f.sql.leads = true ∧ g.sql.leads = true) (Join.fragments p js)
      (Join.fragments p (js.map (·.edited e))) := by
  induction js with
  | nil => exact ⟨K.empty, rfl, rfl⟩
  | cons j rest ih =>
    simp only [Join.fragments, List.map_cons]
    refine (K.join (h j (by simp))).bind fun f f' ⟨hf, hl, hl'⟩ => ?_
    refine (ih fun i hi => h i (by simp [hi])).bind fun g g' ⟨hg, hm, hm'⟩ => ?_
    exact ⟨K.append hf hg hm hm', Text.leads_append hl hm, Text.leads_append hl' hm'⟩

/-! ### Rows -/

theorem assignments (K : Congruence p R e S E) {row : Row} (h : row.Obeys R) :
    S row.assignments (row.edited e).assignments := by
  rw [Row.assignments, Row.assignments, Row.edited, List.map_map]
  exact K.joined rfl (forall₂_map fun entry he =>
    K.around rfl (K.word (h entry he).1) (K.value (h entry he).2))

theorem rowValues (K : Congruence p R e S E) {row : Row} (h : row.Obeys R) :
    S (Fragment.joined "," (row.map (·.2.fragment)))
      (Fragment.joined "," ((row.edited e).map (·.2.fragment))) := by
  rw [Row.edited, List.map_map]
  exact K.joined rfl (forall₂_map fun entry he => K.value (h entry he).2)

theorem rowKeys (K : Congruence p R e S E) {row : Row} (h : row.Obeys R) :
    S (ofText (Text.joined "," row.keys)) (ofText (Text.joined "," row.keys)) :=
  K.joined_texts rfl fun entry he => K.word (h entry he).1

end Congruence

theorem Row.keys_edited (e : Edit) (row : Row) : (row.edited e).keys = row.keys := by
  simp [Row.keys, Row.edited, Function.comp_def]

theorem Row.check_edited (e : Edit) (row : Row) : (row.edited e).check = row.check := by
  have hfind : (row.edited e).find? (fun entry => Text.blank entry.1) =
      (row.find? fun entry => Text.blank entry.1).map fun entry => (entry.1, e.value entry.2) := by
    rw [Row.edited, List.find?_map]
    rfl
  unfold Row.check
  rw [hfind, Row.edited, List.isEmpty_map]
  split
  · rfl
  · cases row.find? fun entry => Text.blank entry.1 <;> rfl

theorem Statements.isGrouped_edited (e : Edit) (st : Statements) :
    (st.edited e).isGrouped = st.isGrouped := by
  have hempty : ∀ cs, (Criterion.allEdited e cs).isEmpty = cs.isEmpty := by
    intro cs
    cases cs <;> rfl
  simp [isGrouped, edited, hempty]

/-! ## Queries -/

/-- Queries of one kind with related text. -/
structure Query.Related (S : Fragment → Fragment → Prop) (q r : Query) : Prop where
  text : S q.text r.text
  kind : q.kind = r.kind

namespace Congruence

variable {st : Statements}

theorem fromText (K : Congruence p R e S E) (h : st.Obeys R) :
    AlikeBy E (fun t u => S (ofText t) (ofText u)) (st.fromText p) ((st.edited e).fromText p) := by
  simp only [Statements.fromText, Statements.edited, List.isEmpty_map, List.map_map]
  split
  · exact K.error_refl _
  · exact K.joined_texts rfl fun t ht => K.tableRef (h.tables t ht)

theorem targetText (K : Congruence p R e S E) (h : st.Obeys R) :
    AlikeBy E (fun t u => S (ofText t) (ofText u)) (st.targetText p)
      ((st.edited e).targetText p) := by
  simp only [Statements.targetText, Statements.edited]
  match st.tables, h.tables with
  | [], _ => exact K.error_refl _
  | [t], ht => exact K.tableRef (ht t (by simp))
  | _ :: _ :: _, _ => exact K.error_refl _

theorem projectionText (K : Congruence p R e S E) (h : st.Obeys R) :
    S (ofText (st.projectionText p)) (ofText ((st.edited e).projectionText p)) := by
  simp only [Statements.projectionText, Statements.edited, List.isEmpty_map, List.map_map]
  split
  · exact K.constant rfl
  · exact K.joined_texts rfl fun s hs =>
      K.withName (K.column (h.selects s hs).column) (h.selects s hs).asName

/-- Ordering and paging behind another part. -/
theorem ending (K : Congruence p R e S E) (h : st.Obeys R) (hf : S f g) :
    S (f ++ ofText (BoundSql.listClause " ORDER BY " (st.sortKeys.map (·.text p)) ++
        BoundSql.numberClause " LIMIT " st.limit ++ BoundSql.numberClause " OFFSET " st.offset))
      (g ++ ofText (
        BoundSql.listClause " ORDER BY " ((st.sortKeys.map (·.edited e)).map (·.text p)) ++
        BoundSql.numberClause " LIMIT " st.limit ++
        BoundSql.numberClause " OFFSET " st.offset)) := by
  have hkeys := K.listClause (s := " ORDER BY ") (a := (SortKey.text p))
    (b := (SortKey.edited e)) rfl
    hf fun k hk => K.sortKey (h.sortKeys k hk)
  have hlimit := K.numberClause (s := " LIMIT ") rfl hkeys st.limit
  have hoffset := K.numberClause (s := " OFFSET ") rfl hlimit st.offset
  rwa [Fragment.append_texts, Fragment.append_texts] at hoffset

/-- The fragment of a SELECT, whatever stands in place of the columns. -/
theorem selectFragment_with (K : Congruence p R e S E) (h : st.Obeys R) (ss ss' : List Projection)
    (hs : S (ofText (Statements.projectionText p { st with selects := ss }))
      (ofText (Statements.projectionText p { st.edited e with selects := ss' }))) :
    AlikeBy E S (Statements.selectFragment p { st with selects := ss })
      (Statements.selectFragment p { st.edited e with selects := ss' }) := by
  refine (K.fromText h).bind fun tables tables' ht => ?_
  refine (K.joins h.joins).bind fun js js' ⟨hj, hl, hl'⟩ => ?_
  refine (K.render h.filters).bind fun fs fs' hf => ?_
  refine (K.render h.havings).bind fun hs₁ hs₂ hh => ?_
  have hword : Text.inert ("SELECT " ++ if st.distinct then "DISTINCT ".toList else []) = true := by
    cases st.distinct <;> rfl
  have hhead := K.around (s := " FROM ") rfl (K.opening hword hs) ht
  have hfilters := K.conditionClause (s := " WHERE ") rfl (K.append hhead hj hl hl') hf
  have hgroupings := K.listClause (s := " GROUP BY ") (a := (Grouping.text p))
    (b := (Grouping.edited e)) rfl hfilters fun g hg => K.column (h.groupings g hg)
  have hhavings := K.conditionClause (s := " HAVING ") rfl hgroupings hh
  have hending := K.ending h hhavings
  exact hending

theorem selectFragment (K : Congruence p R e S E) (h : st.Obeys R) :
    AlikeBy E S (st.selectFragment p) ((st.edited e).selectFragment p) :=
  K.selectFragment_with h st.selects _ (K.projectionText h)

theorem select (K : Congruence p R e S E) (h : st.Obeys R) :
    AlikeBy E (Query.Related S) (st.select p) ((st.edited e).select p) :=
  (K.selectFragment h).bind fun _ _ hfg => ⟨hfg, rfl⟩

/-! ### Aggregates -/

theorem obeys_unordered (h : st.Obeys R) : st.unordered.Obeys R :=
  { h with sortKeys := fun _ hk => absurd hk List.not_mem_nil }

theorem fieldText (K : Congruence p R e S E) {field : Field} (h : field.Obeys R) :
    AlikeBy E (fun t u => S (ofText t) (ofText u)) (field.text p) ((field.edited e).text p) := by
  cases field with
  | column c => exact K.column (h c rfl)
  | group => exact K.error_refl _

theorem aggregate (K : Congruence p R e S E) (h : st.Obeys R) (fn : Aggregate) {field : Field}
    (hf : field.Obeys R) :
    AlikeBy E (Query.Related S) (st.aggregate p fn field)
      ((st.edited e).aggregate p fn (field.edited e)) := by
  refine (K.fieldText hf).bind fun column column' hc => ?_
  have hname : Text.inert (fn.function ++ "(") = true := by cases fn <;> rfl
  have hexpression := K.behind (s := ") AS field") rfl (K.opening hname hc)
  rw [Statements.isGrouped_edited]
  split
  · refine (K.selectFragment (obeys_unordered h)).bind fun f g hfg => ⟨?_, rfl⟩
    have hhead := K.opening (s := "SELECT ") rfl hexpression
    exact K.behind (s := ") AS t") rfl (K.around (s := " FROM (") rfl hhead hfg)
  · have hsingle := K.selectFragment_with (obeys_unordered h) [⟨.raw (ofText _), none⟩]
      [⟨.raw (ofText _), none⟩] hexpression
    exact hsingle.bind fun f g hfg => ⟨hfg, rfl⟩

/-! ### Writes -/

theorem duplicate (K : Congruence p R e S E) (hf : S f g) {row : Row} (h : row.Obeys R) :
    S (f ++ if row.isEmpty then .empty else ofText " ON DUPLICATE KEY UPDATE " ++ row.assignments)
      (g ++ if (row.edited e).isEmpty then .empty
        else ofText " ON DUPLICATE KEY UPDATE " ++ (row.edited e).assignments) := by
  rw [show (row.edited e).isEmpty = row.isEmpty from List.isEmpty_map]
  split
  · exact K.append hf K.empty rfl rfl
  · exact K.append hf (K.opening rfl (K.assignments h)) rfl rfl

theorem insertRow (K : Congruence p R e S E) (h : st.Obeys R) {row : Row} (hrow : row.Obeys R)
    (mode : InsertMode) :
    AlikeBy E (Query.Related S) (st.insertRow p row mode)
      ((st.edited e).insertRow p (row.edited e) mode) := by
  unfold Statements.insertRow
  rw [Row.check_edited, Row.keys_edited]
  refine (K.targetText h).bind fun target target' ht => ?_
  refine AlikeBy.bind_same K.error_refl fun _ => ⟨?_, rfl⟩
  have hmode : Text.inert (mode.keyword ++ " INTO ") = true := by cases mode <;> rfl
  have hkeys := K.around (s := " (") rfl (K.opening hmode ht) (K.rowKeys hrow)
  have hvalues := K.behind (s := ")") rfl
    (K.around (s := ") VALUES (") rfl hkeys (K.rowValues hrow))
  exact K.duplicate hvalues h.onDuplicate

theorem restriction (K : Congruence p R e S E) (h : st.Obeys R) :
    AlikeBy E (fun f g => S f g ∧ f.sql.leads = true ∧ g.sql.leads = true) (st.restriction p)
      ((st.edited e).restriction p) := by
  refine (K.render h.filters).bind fun f g hfg => ?_
  have hfilters := K.conditionClause (s := " WHERE ") rfl K.empty hfg
  have hleads := leads_numberClause (s := " LIMIT ") rfl st.limit
  exact ⟨K.numberClause rfl hfilters st.limit,
    Text.leads_append (leads_conditionClause rfl f) hleads,
    Text.leads_append (leads_conditionClause rfl g) hleads⟩

theorem update (K : Congruence p R e S E) (h : st.Obeys R) {row : Row} (hrow : row.Obeys R) :
    AlikeBy E (Query.Related S) (st.update p row) ((st.edited e).update p (row.edited e)) := by
  unfold Statements.update
  rw [Row.check_edited]
  refine (K.targetText h).bind fun target target' ht => ?_
  refine AlikeBy.bind_same K.error_refl fun _ => ?_
  refine (K.restriction h).bind fun f g ⟨hfg, hl, hl'⟩ => ⟨?_, rfl⟩
  have hhead := K.opening (s := "UPDATE ") rfl ht
  exact K.append (K.around (s := " SET ") rfl hhead (K.assignments hrow)) hfg hl hl'

theorem delete (K : Congruence p R e S E) (h : st.Obeys R) :
    AlikeBy E (Query.Related S) (st.delete p) ((st.edited e).delete p) := by
  refine (K.targetText h).bind fun target target' ht => ?_
  refine (K.restriction h).bind fun f g ⟨hfg, hl, hl'⟩ => ⟨?_, rfl⟩
  exact K.append (K.opening (s := "DELETE FROM ") rfl ht) hfg hl hl'

/-- **The walk through the compiler.** Statements that obey the rules, and the
same statements edited, both fail or compile to related queries, whatever is
asked of them. -/
theorem run (K : Congruence p R e S E) (h : st.Obeys R) {task : Task} (ht : task.Obeys R) :
    AlikeBy E (Query.Related S) (st.run p task) ((st.edited e).run p (task.edited e)) := by
  cases task with
  | select => exact K.select h
  | aggregate fn field => exact K.aggregate h fn ht
  | insertRow row mode => exact K.insertRow h ht mode
  | update row => exact K.update h ht
  | delete => exact K.delete h

end Congruence

end BoundSql
