/-
The text of conditions says how they are put together.

`Outline` is what a list of conditions comes to once groups without conditions
are gone and the first condition of each list has only the NOT of its
connective left. The text of a list is the text of its outline
(`Criterion.render_text`), and `Outline.read` reads the outline back from that
text: parentheses, connectives, negations and order, at any depth. So two lists
have the same text exactly if they have the same outline.

This is said of conditions that are bare words. A condition with SQL of its own
may well have parentheses and connectives in it.
-/
import BoundSql.Proofs.Occurrence
import BoundSql.Proofs.Operands
import BoundSql.Proofs.SubstitutionFacts
import Mathlib.Data.List.Forall2

namespace BoundSql

open Fragment (ofText)
open List (Forall₂)
open Text (Snug isBlank)

variable {p : TablePrefix}

/-! ## Outlines -/

/-- A word or a group, with what joins it to the one before it. -/
inductive Outline where
  | word (connective : Connective) (t : Text)
  | group (connective : Connective) (inner : List Outline)

/-- A connective at the start of a list, where only its NOT counts. -/
def Connective.leading (j : Connective) : Connective := if j.negates then .andNot else .and

namespace Outline

def connective : Outline → Connective
  | .word j _ | .group j _ => j

def leading : Outline → Outline
  | .word j t => .word j.leading t
  | .group j inner => .group j.leading inner

/-- A list whose first connective is reduced to its NOT. -/
def settled : List Outline → List Outline
  | [] => []
  | o :: rest => o.leading :: rest

end Outline

/-- The word a bare condition is. -/
def Test.word : Test → Text
  | .literal f => f.sql
  | _ => []

mutual

/-- The outline of a condition. A group without conditions has none. -/
def Criterion.outline? : Criterion → Option Outline
  | .leaf j _ t => some (.word j t.word)
  | .group j _ _ inner =>
    if (Criterion.outlines inner).isEmpty then none
    else some (.group j (Outline.settled (Criterion.outlines inner)))

def Criterion.outlines : List Criterion → List Outline
  | [] => []
  | c :: rest => c.outline?.toList ++ Criterion.outlines rest

end

/-- The normal form of a list of conditions. -/
def Criterion.normal (cs : List Criterion) : List Outline := Outline.settled (Criterion.outlines cs)

/-! ## Words -/

/-- A word of letters, digits and `_` that is no AND, OR or NOT in any case. -/
structure IsWord (t : Text) : Prop where
  ne_nil : t ≠ []
  chars : ∀ c ∈ t, c.isAlphanum || c == '_'
  free : Text.upper t ∉ ["AND".toList, "OR".toList, "NOT".toList]

/-- All conditions are bare words, those inside groups included. -/
def Criterion.Worded (cs : List Criterion) : Prop :=
  ∀ t ∈ Criterion.allTests cs, ∃ f, t = .literal f ∧ IsWord f.sql

/-- The characters that end a word. -/
def isDelimiter (c : Char) : Bool := c == '(' || c == ')' || c == ' '

theorem IsWord.not_mem {t : Text} (h : IsWord t) {c : Char}
    (hc : (c.isAlphanum || c == '_') = false) :
    c ∉ t := fun hm => by
  rw [h.chars c hm] at hc
  cases hc

theorem IsWord.not_delimiter {t : Text} (h : IsWord t) : ∀ c ∈ t, isDelimiter c = false := by
  intro c hc
  simp only [isDelimiter, Bool.or_eq_false_iff, beq_eq_false_iff_ne]
  refine ⟨⟨?_, ?_⟩, ?_⟩ <;> rintro rfl <;> exact h.not_mem rfl hc

theorem IsWord.solid {t : Text} (h : IsWord t) : Text.InOrder.Solid t :=
  ⟨h.ne_nil, .of_forall fun c hc => isBlank_of_isWordChar (h.chars c hc)⟩

/-- A word is embedded as it is, whatever bindings come with it. -/
theorem IsWord.inlined {f : Fragment} (h : IsWord f.sql) : f.inlined = f.sql := by
  have hscan := Piece.scan_of_not_mem (h.not_mem (c := '%') rfl)
  rw [Fragment.inlined_eq, hscan]
  simpa [fill] using fill_chars_append .doubled f.sql [] f.bindings

/-! ## The text of an outline -/

namespace Outline

mutual

/-- The text of an outline without its connective. -/
def body : Outline → Text
  | .word _ t => t
  | .group _ inner => "(".toList ++ text inner ++ ")".toList

/-- The text of a list. -/
def text : List Outline → Text
  | [] => []
  | o :: rest => (if o.connective.negates then "NOT ".toList else []) ++ o.body ++ following rest

/-- The text of what follows in a list. -/
def following : List Outline → Text
  | [] => []
  | o :: rest => " ".toList ++ o.connective.text ++ " ".toList ++ o.body ++ following rest

end

mutual

/-- Words are words, and the first connective of a group is reduced. -/
def Proper : Outline → Prop
  | .word _ t => IsWord t
  | .group _ inner =>
    inner.head?.all (fun o => o.connective = o.connective.leading) ∧ AllProper inner

def AllProper : List Outline → Prop
  | [] => True
  | o :: rest => o.Proper ∧ AllProper rest

end

theorem connective_leading (o : Outline) : o.leading.connective = o.connective.leading := by
  cases o <;> rfl

theorem body_leading (o : Outline) : o.leading.body = o.body := by
  cases o <;> simp [leading, body]

theorem Proper.leading {o : Outline} (h : o.Proper) : o.leading.Proper := by
  cases o with
  | word j t => exact h
  | group j inner => exact h

end Outline

theorem Connective.negates_leading (j : Connective) : j.leading.negates = j.negates := by
  cases j <;> rfl

theorem Connective.leading_leading (j : Connective) : j.leading.leading = j.leading := by
  cases j <;> rfl

namespace Outline

/-- What is dropped from the first connective is not in the text. -/
theorem text_settled (os : List Outline) : text (settled os) = text os := by
  cases os with
  | nil => rfl
  | cons o rest =>
    simp only [settled, text, connective_leading, Connective.negates_leading, body_leading]

theorem head_settled (os : List Outline) :
    (settled os).head?.all fun o => o.connective = o.connective.leading := by
  cases os with
  | nil => rfl
  | cons o rest => simp [settled, connective_leading, Connective.leading_leading]

theorem AllProper.settled {os : List Outline} (h : AllProper os) : AllProper (settled os) := by
  cases os with
  | nil => exact h
  | cons o rest => exact ⟨h.1.leading, h.2⟩

theorem AllProper.append {os us : List Outline} (h : AllProper os) (hu : AllProper us) :
    AllProper (os ++ us) := by
  induction os with
  | nil => exact hu
  | cons o os ih => exact ⟨h.1, ih h.2⟩

end Outline

/-! ## Conditions are written as their outline -/

theorem Text.InOrder.Solid.append {a b : Text} (ha : Solid a) (m : Text) (hb : Solid b) :
    Solid (a ++ m ++ b) where
  left := by simp [ha.1]
  right.head c hc := by
    obtain ⟨d, a, rfl⟩ := List.exists_cons_of_ne_nil ha.1
    exact ha.2.head c (by simpa using hc)
  right.last c hc := by
    obtain ⟨b, d, rfl⟩ := (List.eq_nil_or_concat b).resolve_left hb.1
    exact hb.2.last c (by simpa using hc)

open Text.InOrder (Solid)

namespace Outline

theorem solid_body {o : Outline} (h : o.Proper) : Solid o.body := by
  cases o with
  | word j t => exact IsWord.solid h
  | group j inner =>
    exact Solid.append ⟨by simp, .of_all rfl⟩ (text inner) ⟨by simp, .of_all rfl⟩

theorem solid_following {t : Text} (ht : Solid t) {os : List Outline} (h : AllProper os) :
    Solid (t ++ following os) := by
  induction os generalizing t with
  | nil => simpa [following] using ht
  | cons o rest ih =>
    have hnext :=
      ih (ht.append (" ".toList ++ o.connective.text ++ " ".toList) (solid_body h.1)) h.2
    simpa [following] using hnext

theorem solid_text {o : Outline} {rest : List Outline} (h : AllProper (o :: rest)) :
    Solid (text (o :: rest)) := by
  refine solid_following ?_ h.2
  have hbody := solid_body h.1
  split
  · have hnot : Solid "NOT".toList := ⟨by simp, .of_all rfl⟩
    exact hnot.append " ".toList hbody
  · exact hbody

end Outline

/-- A predicate has the connective and the text of an outline. -/
structure Predicate.Outlined (q : Predicate) (o : Outline) : Prop where
  connective : q.connective = o.connective
  sql : q.fragment.sql = o.body

theorem following_eq {ps : List Predicate} {os : List Outline}
    (h : Forall₂ Predicate.Outlined ps os) :
    (ps.map Predicate.next).flatMap (fun f => " ".toList ++ f.sql) = Outline.following os := by
  induction h with
  | nil => simp [Outline.following]
  | cons hq _ ih => simp_all [Outline.following, Predicate.next, hq.connective, hq.sql]

theorem conjoined_text {ps : List Predicate} {os : List Outline}
    (h : Forall₂ Predicate.Outlined ps os) (hos : Outline.AllProper os) :
    (conjoined ps).sql = Outline.text os := by
  cases h with
  | nil => simp [conjoined, Fragment.empty, Outline.text]
  | @cons q o ps os hq hrest =>
    have hfirst : q.first.sql =
        (if o.connective.negates then "NOT ".toList else []) ++ o.body := by
      rw [Predicate.first, hq.connective]
      split <;> simp [hq.sql]
    have hjoined : (Fragment.joined " " (q.first :: ps.map Predicate.next)).sql =
        Outline.text (o :: os) := by
      rw [Fragment.sql_joined, List.map_cons, Text.joined_cons, List.flatMap_map, hfirst,
        following_eq hrest, Outline.text]
    rw [conjoined, Fragment.trim, hjoined]
    exact Text.trim_eq_self (Outline.solid_text hos).2

mutual

theorem Criterion.proper_outline? : ∀ {c : Criterion},
    (∀ t ∈ c.tests, ∃ f, t = .literal f ∧ IsWord f.sql) →
    Outline.AllProper c.outline?.toList
  | .leaf j k t, h => by
    obtain ⟨f, rfl, hf⟩ := h t (by simp [tests])
    exact ⟨hf, trivial⟩
  | .group j k op inner, h => by
    simp only [outline?]
    split
    · exact trivial
    · exact ⟨⟨Outline.head_settled _, (Criterion.proper_outlines h).settled⟩, trivial⟩

theorem Criterion.proper_outlines : ∀ {cs : List Criterion}, Worded cs →
    Outline.AllProper (outlines cs)
  | [], _ => trivial
  | c :: rest, h => by
    simp only [Worded, allTests, List.mem_append] at h
    simp only [outlines]
    exact (Criterion.proper_outline? fun t ht => h t (.inl ht)).append
      (Criterion.proper_outlines fun t ht => h t (.inr ht))

end

theorem groupPredicate_outlined {f : Fragment} {os : List Outline} (h : f.sql = Outline.text os)
    (hos : Outline.AllProper os) (j : Connective) :
    Forall₂ Predicate.Outlined ((groupPredicate f).map (⟨j, ·⟩)).toList
      (if os.isEmpty then none else some (Outline.group j (Outline.settled os))).toList := by
  unfold groupPredicate
  cases os with
  | nil => simp [h, Outline.text]
  | cons o rest =>
    have hne : f.sql.isEmpty = false := by
      rw [h]
      simpa using (Outline.solid_text hos).1
    simp only [hne]
    refine .cons ⟨rfl, ?_⟩ .nil
    simp only [Fragment.sql_append, Fragment.sql_ofText, h, Outline.body, Outline.text_settled]

mutual

theorem Criterion.predicate?_outlined : ∀ {c : Criterion},
    (∀ t ∈ c.tests, ∃ f, t = .literal f ∧ IsWord f.sql) →
      ∃ r, c.predicate? p = .ok r ∧ Forall₂ Predicate.Outlined r.toList c.outline?.toList
  | .leaf j k t, h => by
    obtain ⟨f, rfl, hf⟩ := h t (by simp [tests])
    exact ⟨some ⟨j, ofText f.inlined⟩, rfl, .cons ⟨rfl, hf.inlined⟩ .nil⟩
  | .group j k op inner, h => by
    obtain ⟨ps, hps, hout⟩ := Criterion.predicates_outlined h
    have hproper := Criterion.proper_outlines h
    refine ⟨_, ?_, groupPredicate_outlined (conjoined_text hout hproper) hproper j⟩
    simp only [predicate?, hps]
    rfl

theorem Criterion.predicates_outlined : ∀ {cs : List Criterion}, Worded cs →
    ∃ ps, predicates p cs = .ok ps ∧ Forall₂ Predicate.Outlined ps (outlines cs)
  | [], _ => ⟨[], rfl, .nil⟩
  | c :: rest, h => by
    simp only [Worded, allTests, List.mem_append] at h
    obtain ⟨r, hr, hfirst⟩ := Criterion.predicate?_outlined fun t ht => h t (.inl ht)
    obtain ⟨ps, hps, hrest⟩ := Criterion.predicates_outlined fun t ht => h t (.inr ht)
    refine ⟨r.toList ++ ps, ?_, List.rel_append hfirst hrest⟩
    simp only [predicates, hr, hps]
    rfl

end

/-- The text of conditions is the text of their normal form. -/
theorem Criterion.render_text {cs : List Criterion} (h : Worded cs) :
    ∃ f, render p cs = .ok f ∧ f.sql = Outline.text (normal cs) := by
  obtain ⟨ps, hps, hout⟩ := Criterion.predicates_outlined (p := p) h
  refine ⟨conjoined ps, by rw [render, hps]; rfl, ?_⟩
  rw [normal, Outline.text_settled]
  exact conjoined_text hout (Criterion.proper_outlines h)

/-! ## Reading -/

/-- What the text of conditions is made of. -/
inductive Mark where
  | opening
  | closing
  | word (t : Text)

/-- The marks of a text, behind a word that has begun. -/
def Mark.scan (begun : Text) : Text → List Mark
  | [] => ended
  | '(' :: rest => ended ++ .opening :: scan [] rest
  | ')' :: rest => ended ++ .closing :: scan [] rest
  | ' ' :: rest => ended ++ scan [] rest
  | c :: rest => scan (begun ++ [c]) rest
where
  ended : List Mark := if begun.isEmpty then [] else [.word begun]

/-- A connective with NOT behind it. -/
def Connective.negated : Connective → Connective
  | .and | .andNot => .andNot
  | .or | .orNot => .orNot

/-- A reading under way: what stood before each group that is open, with the
connective of the group; what was read of the present list; the connective of
what comes next. -/
structure Reading where
  outer : List (Connective × List Outline) := []
  items : List Outline := []
  pending : Connective := .and

namespace Reading

def add (r : Reading) (o : Outline) : Reading :=
  { r with items := r.items ++ [o], pending := .and }

def step (r : Reading) : Mark → Reading
  | .opening => { outer := (r.pending, r.items) :: r.outer }
  | .closing =>
    match r.outer with
    | [] => r
    | (j, before) :: outer => { outer, items := before ++ [.group j r.items] }
  | .word t =>
    if t = "AND" then { r with pending := .and }
    else if t = "OR" then { r with pending := .or }
    else if t = "NOT" then { r with pending := r.pending.negated }
    else r.add (.word r.pending t)

def run (r : Reading) (t : Text) : Reading := (Mark.scan [] t).foldl step r

end Reading

/-- Reads the outline of a list of conditions from its text. -/
def Outline.read (t : Text) : List Outline := (Reading.run {} t).items

/-! ## Reading the text back -/

/-- A text that cannot go on with a word. -/
def Delimited (t : Text) : Prop := ∀ c ∈ t.head?, isDelimiter c = true

theorem Mark.scan_word {w : Text} (hw : ∀ c ∈ w, isDelimiter c = false) (begun t : Text) :
    scan begun (w ++ t) = scan (begun ++ w) t := by
  induction w generalizing begun with
  | nil => simp
  | cons c w ih =>
    have hc := hw c (by simp)
    simp only [isDelimiter, Bool.or_eq_false_iff, beq_eq_false_iff_ne] at hc
    obtain ⟨⟨hopen, hclose⟩, hspace⟩ := hc
    rw [List.cons_append, scan, ih fun d hd => hw d (by simp [hd])]
    · simp
    all_goals simpa using by assumption

theorem Mark.scan_begun {begun t : Text} (hb : begun ≠ []) (ht : Delimited t) :
    scan begun t = .word begun :: scan [] t := by
  have hended : scan.ended begun = [.word begun] := by simp [scan.ended, hb]
  cases t with
  | nil => exact hended
  | cons c t =>
    have hc := ht c rfl
    simp only [isDelimiter, Bool.or_eq_true, beq_iff_eq] at hc
    rcases hc with (rfl | rfl) | rfl <;> simp only [scan, hended] <;> rfl

namespace Reading

variable {r : Reading}

theorem run_word {w : Text} (hw : IsWord w) {t : Text} (ht : Delimited t) :
    run r (w ++ t) = run (r.add (.word r.pending w)) t := by
  have hfree : ∀ s : Text, Text.upper s = s → s ∈ ["AND".toList, "OR".toList, "NOT".toList] →
      w ≠ s := by
    rintro s hs hmem rfl
    have hupper : Text.upper w ∈ ["AND".toList, "OR".toList, "NOT".toList] := by rwa [hs]
    exact hw.free hupper
  have hstep : r.step (.word w) = r.add (.word r.pending w) := by
    rw [step, if_neg (hfree "AND".toList rfl (by simp)), if_neg (hfree "OR".toList rfl (by simp)),
      if_neg (hfree "NOT".toList rfl (by simp))]
  rw [run, Mark.scan_word hw.not_delimiter, List.nil_append, Mark.scan_begun hw.ne_nil ht,
    List.foldl_cons, hstep, run]

theorem run_connective (j : Connective) (t : Text) :
    run r (j.text ++ (" ".toList ++ t)) = run { r with pending := j } t := by
  cases j <;> rfl

/-- A NOT at the start of a list. -/
theorem run_not (h : r.pending = .and) (t : Text) :
    run r ("NOT ".toList ++ t) = run { r with pending := .andNot } t := by
  have hstep : r.step (.word "NOT".toList) = { r with pending := .andNot } := by
    rw [step, h]
    rfl
  rw [← hstep]
  rfl

theorem run_space (t : Text) : run r (" ".toList ++ t) = run r t := rfl

theorem run_opening (t : Text) :
    run r ("(".toList ++ t) = run { outer := (r.pending, r.items) :: r.outer } t := rfl

theorem run_closing {j : Connective} {before : List Outline}
    {outer : List (Connective × List Outline)}
    (h : r.outer = (j, before) :: outer) (t : Text) :
    run r (")".toList ++ t) = run { outer, items := before ++ [.group j r.items] } t := by
  have hstep : r.step .closing = { outer, items := before ++ [.group j r.items] } := by
    simp only [step, h]
  rw [← hstep]
  rfl

end Reading

theorem delimited_following (os : List Outline) {t : Text} (ht : Delimited t) :
    Delimited (Outline.following os ++ t) := by
  cases os with
  | nil => exact ht
  | cons o rest =>
    intro c hc
    obtain rfl : ' ' = c := by simpa [Outline.following] using hc
    rfl

open Reading in
mutual

/-- Reading the text of an outline adds the outline. -/
theorem Outline.run_body : ∀ {o : Outline}, o.Proper → ∀ {r : Reading}, r.pending = o.connective →
    ∀ {t : Text}, Delimited t → run r (o.body ++ t) = run (r.add o) t
  | .word j w, h, r, hr, t, ht => by
    obtain rfl : r.pending = j := hr
    exact run_word h ht
  | .group j inner, h, r, hr, t, ht => by
    obtain rfl : r.pending = j := hr
    have hclosed : Delimited (")".toList ++ t) := fun c hc => by
      obtain rfl : ')' = c := by simpa using hc
      rfl
    simp only [body, List.append_assoc]
    rw [run_opening, Outline.run_text h.1 h.2 rfl hclosed, run_closing rfl]
    rfl

theorem Outline.run_text : ∀ {os : List Outline},
    os.head?.all (fun o => o.connective = o.connective.leading) → AllProper os →
    ∀ {r : Reading}, r.pending = .and → ∀ {t : Text}, Delimited t →
      run r (text os ++ t) = run { r with items := r.items ++ os } t
  | [], _, _, r, _, t, _ => by simp [text]
  | o :: rest, hhead, h, r, hr, t, ht => by
    have hlead : o.connective = o.connective.leading := by simpa using hhead
    have hbody : ∀ s : Reading, s.pending = o.connective →
        run s (o.body ++ (following rest ++ t)) =
          run { s.add o with items := s.items ++ o :: rest } t := by
      intro s hs
      rw [Outline.run_body h.1 hs (delimited_following rest ht),
        Outline.run_following h.2 rfl ht]
      simp [add]
    simp only [text, List.append_assoc]
    cases hn : o.connective.negates with
    | true =>
      rw [Connective.leading, hn] at hlead
      simp only [if_true]
      rw [run_not hr, hbody _ hlead.symm]
      simp [add, hr]
    | false =>
      rw [Connective.leading, hn] at hlead
      simp only [Bool.false_eq_true, if_false, List.nil_append]
      rw [hbody r (hr.trans hlead.symm)]
      simp [add, hr]

theorem Outline.run_following : ∀ {os : List Outline}, AllProper os →
    ∀ {r : Reading}, r.pending = .and → ∀ {t : Text}, Delimited t →
      run r (following os ++ t) = run { r with items := r.items ++ os } t
  | [], _, r, _, t, _ => by simp [following]
  | o :: rest, h, r, hr, t, ht => by
    simp only [following, List.append_assoc]
    rw [run_space, run_connective, Outline.run_body h.1 rfl (delimited_following rest ht),
      Outline.run_following h.2 rfl ht]
    simp [add, hr]

end

/-- An outline is read back from its text. -/
theorem Outline.read_text {os : List Outline}
    (hhead : os.head?.all fun o => o.connective = o.connective.leading) (h : AllProper os) :
    read (text os) = os := by
  have hrun := Outline.run_text hhead h (r := {}) rfl (t := []) (fun c hc => nomatch hc)
  rw [List.append_nil] at hrun
  rw [read, hrun]
  rfl

/-! ## The text determines the conditions -/

namespace Criterion

/-- **The text of conditions determines how they are put together.** Lists of
bare words, grouped to any depth, always compile; the normal form of a list is
read back from its text; and two lists have the same text if and only if they
have the same normal form. -/
theorem same_text_iff_same_normal (p : TablePrefix) {cs ds : List Criterion} (hcs : Worded cs)
    (hds : Worded ds) :
    ∃ f g, render p cs = .ok f ∧ render p ds = .ok g ∧
      Outline.read f.sql = normal cs ∧ Outline.read g.sql = normal ds ∧
      (f.sql = g.sql ↔ normal cs = normal ds) := by
  obtain ⟨f, hf, hfsql⟩ := render_text (p := p) hcs
  obtain ⟨g, hg, hgsql⟩ := render_text (p := p) hds
  have hread : ∀ {es : List Criterion}, Worded es →
      Outline.read (Outline.text (normal es)) = normal es :=
    fun h => Outline.read_text (Outline.head_settled _) (proper_outlines h).settled
  have hfread : Outline.read f.sql = normal cs := hfsql ▸ hread hcs
  have hgread : Outline.read g.sql = normal ds := hgsql ▸ hread hds
  refine ⟨f, g, hf, hg, hfread, hgread, fun h => ?_, fun h => ?_⟩
  · rw [← hfread, ← hgread, h]
  · rw [hfsql, hgsql, h]

/-- A condition that is a bare word. -/
def bare (j : Connective) (w : Text) : Criterion := .raw (ofText w) j .filter

/-- A list with groups that hold no condition before, between and inside the
others. -/
def sampleList : List Criterion :=
  [nested [nested [] .or .filter] .and .filter, bare .orNot "a", nested [] .andNot .filter,
    nested [bare .or "b", bare .andNot "c_2"] .or .filter]

/-- The same conditions without the empty groups, and without the group. -/
def prunedList : List Criterion :=
  [bare .andNot "a", nested [bare .and "b", bare .andNot "c_2"] .or .filter]

def flatList : List Criterion := [bare .andNot "a", bare .or "b", bare .andNot "c_2"]

theorem same_text_iff_same_normal_sample :
    Worded sampleList ∧ Worded prunedList ∧ Worded flatList ∧
    (∃ f g, render {} sampleList = .ok f ∧ render {} prunedList = .ok g ∧
      f.sql = g.sql ∧ f.sql = "NOT a OR (b AND NOT c_2)".toList) ∧
    (∃ f g, render {} sampleList = .ok f ∧ render {} flatList = .ok g ∧
      normal sampleList ≠ normal flatList ∧ f.sql ≠ g.sql) := by
  have ha : IsWord "a" := ⟨by decide, List.all_eq_true.mp (by decide), by decide⟩
  have hb : IsWord "b" := ⟨by decide, List.all_eq_true.mp (by decide), by decide⟩
  have hc : IsWord "c_2" := ⟨by decide, List.all_eq_true.mp (by decide), by decide⟩
  have hwords : ∀ {cs : List Criterion}, allTests cs =
      [.literal (ofText "a"), .literal (ofText "b"), .literal (ofText "c_2")] → Worded cs := by
    intro cs hcs t ht
    rw [hcs] at ht
    rcases List.mem_cons.mp ht with rfl | ht
    · exact ⟨_, rfl, ha⟩
    rcases List.mem_cons.mp ht with rfl | ht
    · exact ⟨_, rfl, hb⟩
    · obtain rfl := List.mem_singleton.mp ht
      exact ⟨_, rfl, hc⟩
  have hsample : Worded sampleList := hwords rfl
  have hpruned : Worded prunedList := hwords rfl
  have hflat : Worded flatList := hwords rfl
  have hdiffer : normal sampleList ≠ normal flatList := fun h => by
    have hlength := congrArg List.length h
    revert hlength
    decide
  obtain ⟨f, g, hf, hg, -, -, hsame⟩ := same_text_iff_same_normal {} hsample hpruned
  obtain ⟨f', g', hf', hg', -, -, hother⟩ := same_text_iff_same_normal {} hsample hflat
  refine ⟨hsample, hpruned, hflat, ⟨f, g, hf, hg, hsame.mpr rfl, ?_⟩,
    ⟨f', g', hf', hg', hdiffer, mt hother.mp hdiffer⟩⟩
  cases hf
  rfl

end Criterion

end BoundSql
