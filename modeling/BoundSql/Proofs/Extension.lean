/-
One more condition at the end of a list.

The text of a list is its predicates with the connectives between them
(`alternation`), without the blanks at the ends (`sql_conjoined`). A predicate
behind others brings a connective, which can be seen, so the text before it is
not trimmed further, and nothing in it is written anew.

A condition that leaves the text as it is has nothing to be seen: it is a group
that is left out (`Criterion.Vanishes`) or, where it comes first, bare SQL that
is blank (`Criterion.IsBlank`). `render_extended` puts this together.
-/
import BoundSql.Proofs.Bindings
import BoundSql.Proofs.Leaves

namespace BoundSql

open Fragment (ofText)

variable {p : TablePrefix}

/-! ## Predicates in a row -/

namespace Predicate

/-- A predicate at the start, with the NOT of its connective. -/
def front (q : Predicate) : Text :=
  (if q.connective.negates then "NOT " else "") ++ q.fragment.sql

/-- A predicate behind another, with its connective and the blank before it. -/
def behind (q : Predicate) : Text := " " ++ q.connective.text ++ " " ++ q.fragment.sql

theorem sql_first (q : Predicate) : q.first.sql = q.front := by
  unfold first front
  split <;> rfl

theorem blank_behind (q : Predicate) : Text.blank q.behind = false := by
  have hword : ∀ j : Connective, Text.blank (" " ++ j.text ++ " " ++ q.fragment.sql) = false := by
    intro j
    cases j <;> rfl
  exact hword q.connective

/-- Nothing is to be seen at the start of a predicate that is blank, unless it
has a NOT. -/
theorem blank_front (q : Predicate) :
    Text.blank q.front = true ↔ Text.blank q.fragment.sql = true ∧ q.connective.negates = false := by
  cases hn : q.connective.negates with
  | false => simp [front, hn]
  | true =>
    have hnot : Text.blank q.front = false := by
      rw [front, hn]
      rfl
    simp [hnot]

end Predicate

/-- Predicates with the connectives between them. -/
def alternation : List Predicate → Text
  | [] => []
  | q :: rest => q.front ++ rest.flatMap Predicate.behind

theorem sql_conjoined (ps : List Predicate) : (conjoined ps).sql = Text.trim (alternation ps) := by
  cases ps with
  | nil => rfl
  | cons q rest =>
    have hjoined : (Fragment.joined " " (q.first :: rest.map Predicate.next)).sql =
        alternation (q :: rest) := by
      rw [Fragment.sql_joined, List.map_cons, Text.joined_cons, List.map_map, List.flatMap_map,
        q.sql_first, alternation]
      congr 2
    rw [conjoined, Fragment.trim, hjoined]

theorem alternation_concat {ps : List Predicate} (h : ps ≠ []) (q : Predicate) :
    alternation (ps ++ [q]) = alternation ps ++ q.behind := by
  obtain ⟨first, rest, rfl⟩ := List.exists_cons_of_ne_nil h
  simp [alternation]

/-! ## Conditions with nothing to be seen -/

namespace Criterion

/-- A group that is left out, since its list is written as no text. -/
def Vanishes (p : TablePrefix) : Criterion → Prop
  | .leaf .. => False
  | .group _ _ _ inner => ∃ f, render p inner = .ok f ∧ f.sql = []

/-- A bare condition whose SQL is blank. -/
def IsBlank : Criterion → Prop
  | .leaf _ _ (.literal f) => Text.blank f.inlined = true
  | _ => False

theorem predicate?_group_eq_ok {j : Connective} {k : Clause} {op : Text} {inner : List Criterion}
    {r : Option Predicate} :
    predicate? p (.group j k op inner) = .ok r ↔
      ∃ f, render p inner = .ok f ∧ (groupPredicate f).map (⟨j, ·⟩) = r := by
  simp only [predicate?, render]
  cases predicates p inner <;> simp

/-- Only a group that is left out has no predicate. -/
theorem predicate?_eq_none_iff {c : Criterion} {r : Option Predicate} (h : c.predicate? p = .ok r) :
    r = none ↔ c.Vanishes p := by
  cases c with
  | leaf j k t =>
    simp only [predicate?, Except.bind_ok_iff, Except.pure_ok_iff] at h
    obtain ⟨f, -, rfl⟩ := h
    simp [Vanishes]
  | group j k op inner =>
    obtain ⟨f, hf, rfl⟩ := predicate?_group_eq_ok.mp h
    have hvanishes : (group j k op inner).Vanishes p ↔ f.sql = [] := by
      simp [Vanishes, hf]
    rw [hvanishes, groupPredicate]
    cases hs : f.sql <;> simp

/-- The predicate of a condition has its connective, and is blank only where the
condition is bare SQL that is blank. -/
theorem predicate?_eq_some {c : Criterion} (hc : c.Made) {q : Predicate}
    (h : c.predicate? p = .ok (some q)) :
    q.connective = c.connective ∧ (Text.blank q.fragment.sql = true ↔ c.IsBlank) := by
  cases c with
  | leaf j k t =>
    simp only [predicate?, Except.bind_ok_iff, Except.pure_ok_iff, Option.some.injEq] at h
    obtain ⟨f, hf, rfl⟩ := h
    refine ⟨rfl, ?_⟩
    cases t with
    | literal g =>
      cases hf
      rfl
    | _ =>
      have hwritten := hc.written (fun g hg => by simp [tests] at hg) _ (List.mem_singleton_self _)
      simp [IsBlank, Test.blank_fragment hwritten hf]
  | group j k op inner =>
    obtain ⟨f, -, hq⟩ := predicate?_group_eq_ok.mp h
    obtain ⟨g, hg, rfl⟩ := Option.map_eq_some_iff.mp hq
    refine ⟨rfl, ?_⟩
    unfold groupPredicate at hg
    split at hg
    · cases hg
    · obtain rfl := Option.some.inj hg
      have hopen : Text.blank (ofText "(" ++ f ++ ofText ")").sql = false := rfl
      rw [hopen]
      simp [IsBlank]

/-! ## Lists, condition by condition -/

theorem render_eq_ok {cs : List Criterion} {f : Fragment} :
    render p cs = .ok f ↔ ∃ ps, predicates p cs = .ok ps ∧ conjoined ps = f := by
  simp only [render, Except.bind_ok_iff, Except.pure_ok_iff]

theorem predicates_cons_eq_ok {c : Criterion} {cs : List Criterion} {ps : List Predicate} :
    predicates p (c :: cs) = .ok ps ↔
      ∃ o qs, c.predicate? p = .ok o ∧ predicates p cs = .ok qs ∧ ps = o.toList ++ qs := by
  simp only [predicates, Except.bind_ok_iff, Except.pure_ok_iff]
  constructor
  · rintro ⟨o, ho, qs, hqs, rfl⟩
    exact ⟨o, qs, ho, hqs, rfl⟩
  · rintro ⟨o, qs, ho, hqs, rfl⟩
    exact ⟨o, ho, qs, hqs, rfl⟩

theorem predicates_append_eq_ok {cs ds : List Criterion} {ps : List Predicate} :
    predicates p (cs ++ ds) = .ok ps ↔
      ∃ as bs, predicates p cs = .ok as ∧ predicates p ds = .ok bs ∧ ps = as ++ bs := by
  induction cs generalizing ps with
  | nil => simp [predicates]
  | cons c cs ih =>
    simp only [List.cons_append, predicates_cons_eq_ok, ih]
    constructor
    · rintro ⟨o, qs, ho, ⟨as, bs, has, hbs, rfl⟩, rfl⟩
      exact ⟨_, bs, ⟨o, as, ho, has, rfl⟩, hbs, (List.append_assoc _ _ _).symm⟩
    · rintro ⟨_, bs, ⟨o, as, ho, has, rfl⟩, hbs, rfl⟩
      exact ⟨o, as ++ bs, ho, ⟨as, bs, has, hbs, rfl⟩, List.append_assoc _ _ _⟩

theorem predicates_singleton_eq_ok {c : Criterion} {ps : List Predicate} :
    predicates p [c] = .ok ps ↔ ∃ o, c.predicate? p = .ok o ∧ ps = o.toList := by
  rw [predicates_cons_eq_ok]
  constructor
  · rintro ⟨o, qs, ho, hqs, rfl⟩
    cases hqs
    exact ⟨o, ho, List.append_nil _⟩
  · rintro ⟨o, ho, rfl⟩
    exact ⟨o, [], ho, rfl, (List.append_nil _).symm⟩

/-- A list without predicates is one of groups that are left out. -/
theorem predicates_eq_nil_iff {cs : List Criterion} {ps : List Predicate}
    (h : predicates p cs = .ok ps) : ps = [] ↔ ∀ c ∈ cs, c.Vanishes p := by
  induction cs generalizing ps with
  | nil =>
    cases h
    simp
  | cons c cs ih =>
    obtain ⟨o, qs, ho, hqs, rfl⟩ := predicates_cons_eq_ok.mp h
    rw [List.append_eq_nil_iff, Option.toList_eq_nil_iff, ih hqs, predicate?_eq_none_iff ho]
    simp

/-! ## One more condition -/

/-- What a predicate behind others changes about the text of a list. -/
theorem conjoined_concat (ps : List Predicate) (q : Predicate) :
    (conjoined ps).sql <+: (conjoined (ps ++ [q])).sql ∧
      ((conjoined ps).sql = (conjoined (ps ++ [q])).sql ↔
        ps = [] ∧ Text.blank q.fragment.sql = true ∧ q.connective.negates = false) := by
  simp only [sql_conjoined]
  by_cases hps : ps = []
  · subst hps
    refine ⟨List.nil_prefix, ?_⟩
    rw [show alternation [] = [] from rfl, show Text.trim [] = [] from rfl, eq_comm, List.nil_append,
      Text.trim_eq_nil, alternation, List.flatMap_nil, List.append_nil, q.blank_front]
    simp
  · rw [alternation_concat hps q, Text.trim_append_eq_iff, q.blank_behind]
    exact ⟨Text.trim_append_prefix _ _, by simp [hps]⟩

/-- **One more condition never rewrites those before it.** If a list of
conditions compiles with another one behind it, it compiles, and its text and
its bindings are the beginning of those of the longer list. The texts are the
same only where the condition has nothing to be seen: a group that is left out,
or blank SQL without a NOT, behind nothing but groups that are left out. -/
theorem render_extended {cs : List Criterion} {c : Criterion} (hc : c.Made) {g : Fragment}
    (hg : render p (cs ++ [c]) = .ok g) :
    ∃ f, render p cs = .ok f ∧ f.sql <+: g.sql ∧ f.bindings <+: g.bindings ∧
      (f.sql = g.sql ↔ c.Vanishes p ∨
        (∀ d ∈ cs, d.Vanishes p) ∧ c.IsBlank ∧ c.connective.negates = false) := by
  obtain ⟨ps, hps, rfl⟩ := render_eq_ok.mp hg
  obtain ⟨as, bs, has, hbs, rfl⟩ := predicates_append_eq_ok.mp hps
  obtain ⟨r, hr, rfl⟩ := predicates_singleton_eq_ok.mp hbs
  have hf : render p cs = .ok (conjoined as) := render_eq_ok.mpr ⟨as, has, rfl⟩
  refine ⟨conjoined as, hf, ?_, ?_, ?_⟩
  · cases r with
    | none => simp
    | some q => exact (conjoined_concat as q).1
  · rw [(render_bindings hf).1, (render_bindings hg).1, bindings, bindings, allTests_append,
      List.flatMap_append]
    exact List.prefix_append _ _
  · rw [← predicate?_eq_none_iff hr, ← predicates_eq_nil_iff has]
    cases r with
    | none => simp
    | some q =>
      obtain ⟨hconnective, hblank⟩ := predicate?_eq_some hc hr
      have hequal := (conjoined_concat as q).2
      rw [hblank, hconnective] at hequal
      simpa using hequal

/-- A condition behind SQL with blanks around it and a group that is left out,
and blank SQL behind a group that is left out. -/
theorem render_extended_sample :
    let emptyGroup : Criterion := .nested [.raw (ofText " ") .and .filter] .orNot .filter
    let cs : List Criterion := [.raw (ofText " a ") .or .filter, emptyGroup]
    let c : Criterion := .leaf .andNot .filter (.among (.name "id") "IN" [.plain (.int 1), .plain (.int 2)])
    let blankRaw : Criterion := .raw (ofText " ") .or .filter
    (c.Made ∧ ∃ f g, render {} cs = .ok f ∧ render {} (cs ++ [c]) = .ok g ∧ f.sql <+: g.sql ∧
      f.sql ≠ g.sql ∧ g.sql = "a  AND NOT id IN (%d, %d)".toList) ∧
    (blankRaw.Made ∧ ∃ f g, render {} [emptyGroup] = .ok f ∧
      render {} ([emptyGroup] ++ [blankRaw]) = .ok g ∧ f.sql = g.sql) := by
  intro emptyGroup cs c blankRaw
  have hmake : make (.column (.name "id")) " IN " (some (.list [.plain (.int 1), .plain (.int 2)]))
      .andNot .filter = .ok c := rfl
  have hc : c.Made := .single hmake
  have hraw : blankRaw.Made := .raw _ _ _
  obtain ⟨g, hg⟩ : ∃ g, render {} (cs ++ [c]) = .ok g := ⟨_, rfl⟩
  obtain ⟨f, hf, hsql, -, hequal⟩ := render_extended hc hg
  have hlong : (render {} (cs ++ [c])).map Fragment.sql = .ok "a  AND NOT id IN (%d, %d)".toList := rfl
  obtain ⟨g', hg'⟩ : ∃ g, render {} ([emptyGroup] ++ [blankRaw]) = .ok g := ⟨_, rfl⟩
  obtain ⟨f', hf', -, -, hequal'⟩ := render_extended hraw hg'
  refine ⟨⟨hc, f, g, hf, hg, hsql, ?_, ?_⟩, hraw, f', g', hf', hg', ?_⟩
  · rw [ne_eq, hequal]
    rintro (hvanishes | ⟨-, hblank, -⟩)
    · exact hvanishes
    · exact hblank
  · exact Except.ok.inj (hg ▸ hlong)
  · refine hequal'.mpr (.inr ⟨fun d hd => ?_, rfl, rfl⟩)
    obtain rfl := List.mem_singleton.mp hd
    exact ⟨_, rfl, rfl⟩

end Criterion

end BoundSql
