/-
Where a connective may be left without a condition.

The text of a list should be an alternation: conditions to be seen, with a
connective between each two of them, and at most a NOT in front
(`Alternates`). A condition is written with its connective whether there is
something to be seen of it or not, so blank SQL among the conditions leaves a
connective alone. `connectives_followed` says that nothing else does: the text of a
list is an alternation exactly if blank SQL stands alone in it, without a NOT.

How much is to be seen in a text is counted (`Text.ink`). Blanks at the ends do
not count, so a connective too many cannot hide in them.
-/
import BoundSql.Proofs.Extension
import BoundSql.Proofs.Occurrence

namespace BoundSql

open Fragment (ofText)

variable {p : TablePrefix}

/-! ## What is to be seen of a text -/

/-- The number of characters that are no blanks. -/
def Text.ink (t : Text) : Nat := t.countP fun c => !isBlank c

namespace Text

theorem ink_append (t u : Text) : ink (t ++ u) = ink t + ink u := List.countP_append

theorem ink_eq_zero {t : Text} : ink t = 0 ↔ blank t = true := by
  simp [ink, blank, List.countP_eq_zero]

theorem ink_trim (t : Text) : ink (trim t) = ink t := by
  obtain ⟨l, r, hl, hr, ht⟩ := trim_spec t
  have hink := congrArg ink ht
  rw [ink_append, ink_append, ink_eq_zero.mpr hl, ink_eq_zero.mpr hr] at hink
  omega

end Text

open Text (ink InOrder)

/-- A connective has two letters more than what is left of it in front. -/
theorem Predicate.ink_front_le (q : Predicate) : ink q.front + 2 ≤ ink q.behind := by
  have hword : ∀ j : Connective,
      ink (if j.negates then "NOT " else "").toList + 2 ≤ ink (" " ++ j.text ++ " ") := by
    intro j
    cases j <;> decide
  have := hword q.connective
  rw [front, behind, Text.ink_append, Text.ink_append]
  omega

theorem ink_behinds {qs ps : List Predicate} (h : qs.Sublist ps) :
    ink (qs.flatMap Predicate.behind) + 2 * ps.length ≤
      ink (ps.flatMap Predicate.behind) + 2 * qs.length := by
  induction h with
  | slnil => exact Nat.le_refl _
  | @cons qs ps q _ ih =>
    have := q.ink_front_le
    rw [List.flatMap_cons, Text.ink_append, List.length_cons]
    omega
  | @cons_cons qs ps q _ ih =>
    rw [List.flatMap_cons, List.flatMap_cons, Text.ink_append, Text.ink_append, List.length_cons,
      List.length_cons]
    omega

/-- There is less to be seen of fewer predicates, unless the only one is left out
and nothing is to be seen of it. -/
theorem ink_alternation_lt {qs ps : List Predicate} (h : qs.Sublist ps) (hne : qs ≠ ps) :
    ink (alternation qs) < ink (alternation ps) ∨ ∃ q, ps = [q] ∧ Text.blank q.front = true := by
  cases h with
  | slnil => exact absurd rfl hne
  | @cons _ rest q h =>
    have hrest := ink_behinds h
    have hlength := h.length_le
    rw [show alternation (q :: rest) = q.front ++ rest.flatMap Predicate.behind from rfl,
      Text.ink_append]
    cases qs with
    | nil =>
      have hnil : ink (alternation []) = 0 := rfl
      simp only [List.flatMap_nil, List.length_nil] at hrest
      cases rest with
      | nil =>
        by_cases hq : ink q.front = 0
        · exact .inr ⟨q, rfl, Text.ink_eq_zero.mp hq⟩
        · exact .inl (by omega)
      | cons r rest =>
        rw [List.length_cons] at hrest
        exact .inl (by omega)
    | cons a as =>
      -- the connective of `a` has become shorter
      have := a.ink_front_le
      rw [List.flatMap_cons, Text.ink_append] at hrest
      rw [alternation, Text.ink_append]
      exact .inl (by omega)
  | @cons_cons as rest q h =>
    have hlength : as.length < rest.length :=
      Nat.lt_of_le_of_ne h.length_le fun heq => hne (by rw [h.eq_of_length heq])
    have hrest := ink_behinds h
    rw [alternation, alternation, Text.ink_append, Text.ink_append]
    exact .inl (by omega)

/-! ## Alternations -/

/-- A text is an alternation of predicates of a list: some of them, in their
order, all of them to be seen, with the connectives between them. -/
def Alternates (ps : List Predicate) (t : Text) : Prop :=
  ∃ qs : List Predicate, qs.Sublist ps ∧ (∀ q ∈ qs, Text.blank q.fragment.sql = false) ∧
    t = Text.trim (alternation qs)

/-- The text of a list is an alternation if all its predicates can be seen, or
nothing can be seen of the only one. -/
theorem alternates_conjoined {ps : List Predicate} :
    Alternates ps (conjoined ps).sql ↔
      (∀ q ∈ ps, Text.blank q.fragment.sql = false) ∨
        ∃ q, ps = [q] ∧ Text.blank q.front = true := by
  rw [sql_conjoined]
  constructor
  · rintro ⟨qs, hqs, hvisible, htext⟩
    by_cases heq : qs = ps
    · exact .inl (heq ▸ hvisible)
    · have hink := congrArg ink htext
      rw [Text.ink_trim, Text.ink_trim] at hink
      exact .inr ((ink_alternation_lt hqs heq).resolve_left (by omega))
  · rintro (hvisible | ⟨q, rfl, hq⟩)
    · exact ⟨ps, .refl _, hvisible, rfl⟩
    · refine ⟨[], List.nil_sublist _, by simp, ?_⟩
      have halternation : alternation [q] = q.front := by simp [alternation]
      rw [halternation, Text.trim_eq_nil.mpr hq]
      rfl

namespace Criterion

/-! ## Blank SQL in a list -/

/-- Blank SQL has no NOT, and besides it the list has only groups that are left out. -/
def BlankAlone (p : TablePrefix) (cs : List Criterion) : Prop :=
  ∀ l c r, cs = l ++ c :: r → c.IsBlank →
    c.connective.negates = false ∧ ∀ d ∈ l ++ r, d.Vanishes p

theorem predicates_middle_eq_ok {l r : List Criterion} {c : Criterion} {ps : List Predicate} :
    predicates p (l ++ c :: r) = .ok ps ↔
      ∃ as o bs, predicates p l = .ok as ∧ c.predicate? p = .ok o ∧ predicates p r = .ok bs ∧
        ps = as ++ (o.toList ++ bs) := by
  simp only [predicates_append_eq_ok, predicates_cons_eq_ok]
  constructor
  · rintro ⟨as, _, has, ⟨o, bs, ho, hbs, rfl⟩, rfl⟩
    exact ⟨as, o, bs, has, ho, hbs, rfl⟩
  · rintro ⟨as, o, bs, has, ho, hbs, rfl⟩
    exact ⟨as, _, has, ⟨o, bs, ho, hbs, rfl⟩, rfl⟩

/-- Every predicate of a list is that of a condition in it. -/
theorem exists_of_predicates {cs : List Criterion} {as bs : List Predicate} {q : Predicate}
    (h : predicates p cs = .ok (as ++ q :: bs)) :
    ∃ l c r, cs = l ++ c :: r ∧ predicates p l = .ok as ∧ c.predicate? p = .ok (some q) ∧
      predicates p r = .ok bs := by
  induction cs generalizing as with
  | nil => simp [predicates] at h
  | cons c cs ih =>
    obtain ⟨o, qs, ho, hqs, heq⟩ := predicates_cons_eq_ok.mp h
    cases o with
    | none =>
      obtain rfl : as ++ q :: bs = qs := heq
      obtain ⟨l, d, r, rfl, hl, hd, hr⟩ := ih hqs
      exact ⟨c :: l, d, r, rfl, predicates_cons_eq_ok.mpr ⟨none, as, ho, hl, rfl⟩, hd, hr⟩
    | some q' =>
      cases as with
      | nil =>
        obtain ⟨rfl, rfl⟩ := List.cons.inj heq
        exact ⟨[], c, cs, rfl, rfl, ho, hqs⟩
      | cons a as =>
        obtain ⟨rfl, rfl⟩ : a = q' ∧ as ++ q :: bs = qs := List.cons.inj heq
        obtain ⟨l, d, r, rfl, hl, hd, hr⟩ := ih hqs
        exact ⟨c :: l, d, r, rfl, predicates_cons_eq_ok.mpr ⟨some a, as, ho, hl, rfl⟩, hd, hr⟩

/-- Blank SQL stands alone in a list if all predicates of the list can be seen,
or nothing can be seen of the only one. -/
theorem blankAlone_iff {cs : List Criterion} (hmade : ∀ c ∈ cs, c.Made) {ps : List Predicate}
    (h : predicates p cs = .ok ps) :
    BlankAlone p cs ↔
      (∀ q ∈ ps, Text.blank q.fragment.sql = false) ∨
        ∃ q, ps = [q] ∧ Text.blank q.front = true := by
  constructor
  · intro halone
    by_cases hvisible : ∀ q ∈ ps, Text.blank q.fragment.sql = false
    · exact .inl hvisible
    · push Not at hvisible
      obtain ⟨q, hq, hblank⟩ := hvisible
      rw [ne_eq, Bool.not_eq_false] at hblank
      obtain ⟨as, bs, rfl⟩ := List.append_of_mem hq
      obtain ⟨l, c, r, rfl, has, hc, hbs⟩ := exists_of_predicates h
      obtain ⟨hconnective, hisBlank⟩ := predicate?_eq_some (hmade c (by simp)) hc
      obtain ⟨hnegates, hrest⟩ := halone l c r rfl (hisBlank.mp hblank)
      have has : as = [] := (predicates_eq_nil_iff has).mpr fun d hd => hrest d (by simp [hd])
      have hbs : bs = [] := (predicates_eq_nil_iff hbs).mpr fun d hd => hrest d (by simp [hd])
      subst has hbs
      exact .inr ⟨q, rfl, q.blank_front.mpr ⟨hblank, hconnective ▸ hnegates⟩⟩
  · rintro hps l c r rfl hc
    obtain ⟨as, o, bs, has, ho, hbs, rfl⟩ := predicates_middle_eq_ok.mp h
    cases o with
    | none =>
      -- blank SQL is no group, so it is not left out
      have hvanishes := (predicate?_eq_none_iff ho).mp rfl
      cases c <;> contradiction
    | some q =>
      obtain ⟨hconnective, hisBlank⟩ := predicate?_eq_some (hmade c (by simp)) ho
      rcases hps with hvisible | ⟨q', hq', hblank⟩
      · have hq := hvisible q (by simp)
        rw [hisBlank.mpr hc] at hq
        cases hq
      · rcases List.append_eq_singleton_iff.mp hq' with ⟨rfl, hcons⟩ | ⟨-, hnil⟩
        · obtain ⟨rfl, rfl⟩ : q = q' ∧ bs = [] := List.cons.inj hcons
          refine ⟨hconnective ▸ (q.blank_front.mp hblank).2, fun d hd => ?_⟩
          rcases List.mem_append.mp hd with hd | hd
          · exact (predicates_eq_nil_iff has).mp rfl d hd
          · exact (predicates_eq_nil_iff hbs).mp rfl d hd
        · cases hnil

/-! ## Lists inside of lists -/

/-- A list is another one or that of a group in it, however deep, that is not
left out. -/
inductive Within (p : TablePrefix) (ds : List Criterion) : List Criterion → Prop
  | self : Within p ds ds
  | group {cs inner : List Criterion} {j : Connective} {k : Clause} {op : Text} :
      .group j k op inner ∈ cs → ¬ (Criterion.group j k op inner).Vanishes p →
      Within p ds inner → Within p ds cs

theorem Made.inner {j : Connective} {k : Clause} {op : Text} {inner : List Criterion}
    (h : (Criterion.group j k op inner).Made) : ∀ c ∈ inner, c.Made := by
  generalize hc : Criterion.group j k op inner = c at h
  cases h with
  | single hmake =>
    rcases make_cases hmake with ⟨inner, hfield, -⟩ | ⟨f, rfl⟩ | ⟨column, t, -, -, rfl⟩
    · cases hfield
    · cases hc
    · cases hc
  | raw => cases hc
  | group j k op hinner =>
    cases hc
    exact hinner

/-- A predicate is written as it is in the text of its list. -/
theorem infix_alternation {ps : List Predicate} {q : Predicate} (h : q ∈ ps) :
    q.fragment.sql <:+: alternation ps := by
  cases ps with
  | nil => cases h
  | cons q' rest =>
    rcases List.mem_cons.mp h with rfl | hrest
    · exact ⟨_, rest.flatMap Predicate.behind, rfl⟩
    · have hbehind : q.fragment.sql <:+: q.behind := (List.suffix_append _ _).isInfix
      have hflat : q.behind <:+: rest.flatMap Predicate.behind := by
        rw [List.flatMap_def]
        exact List.infix_of_mem_flatten (List.mem_map_of_mem hrest)
      exact hbehind.trans (hflat.trans (List.suffix_append _ _).isInfix)

/-- A group that is not left out is written in parentheses. -/
theorem infix_of_group {cs inner : List Criterion} {j : Connective} {k : Clause} {op : Text}
    (hmem : group j k op inner ∈ cs) (hleft : ¬ (group j k op inner).Vanishes p) {f : Fragment}
    (hf : render p cs = .ok f) :
    ∃ g, render p inner = .ok g ∧ Text.parenthesized g.sql <:+: f.sql := by
  obtain ⟨ps, hps, rfl⟩ := render_eq_ok.mp hf
  obtain ⟨l, r, rfl⟩ := List.append_of_mem hmem
  obtain ⟨as, o, bs, -, ho, -, rfl⟩ := predicates_middle_eq_ok.mp hps
  have hleft := mt (predicate?_eq_none_iff ho).mp hleft
  obtain ⟨g, hg, rfl⟩ := predicate?_group_eq_ok.mp ho
  refine ⟨g, hg, ?_⟩
  unfold groupPredicate at hleft ⊢
  split at hleft
  · exact absurd rfl hleft
  next hempty =>
    rw [if_neg hempty, sql_conjoined]
    let q : Predicate := ⟨j, ofText "(" ++ g ++ ofText ")"⟩
    obtain ⟨a, b, hin⟩ : Text.parenthesized g.sql <:+: alternation (as ++ ([q] ++ bs)) :=
      infix_alternation (q := q) (by simp)
    have hsolid : ∀ t ∈ [Text.parenthesized g.sql], InOrder.Solid t := by
      intro t ht
      obtain rfl := List.mem_singleton.mp ht
      exact ⟨Text.parenthesized_ne_nil _, Text.snug_parenthesized _⟩
    obtain ⟨a', b', hin', -⟩ := InOrder.trim hsolid ⟨a, b, hin.symm, trivial⟩
    exact ⟨a', b', hin'.symm⟩

/-- The list of a group is written in the text around it. -/
theorem Within.render {cs ds : List Criterion} (hds : Within p ds cs) (hmade : ∀ c ∈ cs, c.Made)
    {f : Fragment} (hf : Criterion.render p cs = .ok f) :
    (∀ d ∈ ds, d.Made) ∧ ∃ g, Criterion.render p ds = .ok g ∧
      (ds = cs ∨ Text.parenthesized g.sql <:+: f.sql) := by
  induction hds generalizing f with
  | self => exact ⟨hmade, f, hf, .inl rfl⟩
  | group hmem hleft _ ih =>
    obtain ⟨g, hg, hinfix⟩ := infix_of_group hmem hleft hf
    obtain ⟨hmade', g', hg', hin⟩ := ih (Made.inner (hmade _ hmem)) hg
    refine ⟨hmade', g', hg', .inr ?_⟩
    rcases hin with rfl | hin
    · obtain rfl : g = g' := Except.ok.inj (hg.symm.trans hg')
      exact hinfix
    · have hparens : g.sql <:+: Text.parenthesized g.sql := ⟨"(".toList, ")".toList, rfl⟩
      exact hin.trans (hparens.trans hinfix)

/-- **Only blank SQL leaves a connective alone.** Conditions that compile have
the text of each of their lists in their text, inside of parentheses if it is
that of a group. Such a text is an alternation of predicates and connectives
exactly if no blank SQL stands in the list, or stands alone and without a NOT. -/
theorem connectives_followed {cs ds : List Criterion} (hmade : ∀ c ∈ cs, c.Made) {f : Fragment}
    (hf : render p cs = .ok f) (hds : Within p ds cs) :
    ∃ ps g, predicates p ds = .ok ps ∧ render p ds = .ok g ∧
      (ds = cs ∨ Text.parenthesized g.sql <:+: f.sql) ∧
      (Alternates ps g.sql ↔ BlankAlone p ds) := by
  obtain ⟨hmade, g, hg, hin⟩ := hds.render hmade hf
  obtain ⟨ps, hps, rfl⟩ := render_eq_ok.mp hg
  refine ⟨ps, _, hps, hg, hin, ?_⟩
  rw [alternates_conjoined, blankAlone_iff hmade hps]

/-- Blank SQL that stands alone in a group is left out with it. Blank SQL behind
another condition of a group leaves its connective in the group, while the text
around the group is as it should be. -/
theorem connectives_followed_sample :
    let ds : List Criterion := [.raw (ofText "b") .or .filter, .raw (ofText "") .and .filter]
    let blankGroup : Criterion := .nested [.raw (ofText " ") .or .filter] .and .filter
    let cs : List Criterion := [.raw (ofText "a") .and .filter, blankGroup, .nested ds .orNot .filter]
    (∀ c ∈ cs, c.Made) ∧ Within {} cs cs ∧ Within {} ds cs ∧
      ∃ f ps g qs, render {} cs = .ok f ∧ f.sql = "a OR NOT (b AND)".toList ∧
        predicates {} cs = .ok ps ∧ Alternates ps f.sql ∧
        render {} ds = .ok g ∧ Text.parenthesized g.sql <:+: f.sql ∧
        predicates {} ds = .ok qs ∧ ¬ Alternates qs g.sql := by
  intro ds blankGroup cs
  have hraw : ∀ c ∈ ds, c.Made :=
    List.forall_mem_cons.mpr ⟨.raw _ _ _, List.forall_mem_singleton.mpr (.raw _ _ _)⟩
  have hblankGroup : blankGroup.Made :=
    .group _ _ _ (List.forall_mem_singleton.mpr (.raw _ _ _))
  have hmade : ∀ c ∈ cs, c.Made :=
    List.forall_mem_cons.mpr ⟨.raw _ _ _,
      List.forall_mem_cons.mpr ⟨hblankGroup, List.forall_mem_singleton.mpr (.group _ _ _ hraw)⟩⟩
  have hself : Within {} cs cs := .self
  have hds : Within {} ds cs := by
    have hmem : nested ds .orNot .filter ∈ cs := by simp [cs]
    refine .group hmem ?_ .self
    rintro ⟨f, hf, hnil⟩
    cases hf
    cases hnil
  obtain ⟨f, hf⟩ : ∃ f, render {} cs = .ok f := ⟨_, rfl⟩
  have hsql : (render {} cs).map Fragment.sql = .ok "a OR NOT (b AND)".toList := rfl
  obtain ⟨ps, f', hps, hf', -, houter⟩ := connectives_followed hmade hf hself
  obtain ⟨qs, g, hqs, hg, hin, hinner⟩ := connectives_followed hmade hf hds
  obtain rfl : f = f' := Except.ok.inj (hf.symm.trans hf')
  have hne : ds ≠ cs := fun h => by cases congrArg List.length h
  refine ⟨hmade, hself, hds, f, ps, g, qs, hf, Except.ok.inj (hf ▸ hsql), hps, houter.mpr ?_, hg,
    hin.resolve_left hne, hqs, fun h => ?_⟩
  · intro l c r heq hblank
    have hmem : c ∈ cs := by simp [heq]
    simp only [cs, List.mem_cons, List.not_mem_nil, or_false] at hmem
    rcases hmem with rfl | rfl | rfl
    · cases hblank
    · exact hblank.elim
    · exact hblank.elim
  · let seen : Criterion := .raw (ofText "b") .or .filter
    obtain ⟨-, hrest⟩ := hinner.mp h [seen] (.raw (ofText "") .and .filter) [] rfl rfl
    exact hrest seen (by simp)

/-- Blank SQL in front of a condition leaves the connective of the condition. -/
theorem connective_first :
    let cs : List Criterion := [.raw (ofText "") .and .filter, .raw (ofText "a") .and .filter]
    (∀ c ∈ cs, c.Made) ∧ ∃ ps f, predicates {} cs = .ok ps ∧ render {} cs = .ok f ∧
      f.sql = "AND a".toList ∧ ¬ Alternates ps f.sql := by
  intro cs
  have hmade : ∀ c ∈ cs, c.Made :=
    List.forall_mem_cons.mpr ⟨.raw _ _ _, List.forall_mem_singleton.mpr (.raw _ _ _)⟩
  refine ⟨hmade, _, _, rfl, rfl, rfl, fun h => ?_⟩
  rcases alternates_conjoined.mp h with hvisible | ⟨q, hq, -⟩
  · cases hvisible ⟨.and, ofText ""⟩ (.head _)
  · cases hq

end Criterion

end BoundSql
