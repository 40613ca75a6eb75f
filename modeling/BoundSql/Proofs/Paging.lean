/-
The paging of a query, and the calls it comes from.

Limit and offset are two settings, each with the last of the calls that set it;
paginating sets both. They are written one behind the other at the end of a
SELECT, each if it is there. So the text is paging by MySQL's grammar
(`PagingText`) for every run of calls but those that set an offset and nothing
else: an OFFSET stands behind a LIMIT or not at all.

The query for the first row is always one with a LIMIT, since it asks for one
itself.
-/
import BoundSql.Proofs.Aggregates
import BoundSql.Proofs.Commuting
import BoundSql.Proofs.Filters
import BoundSql.Proofs.Sending

namespace BoundSql

open Fragment (ofText)

variable {p : TablePrefix}

/-! ## Paging as text -/

/-- A limit and an offset, each if it is there. -/
def pagingText (limit offset : Option Nat) : Text :=
  (match limit with
    | none => []
    | some n => " LIMIT " ++ natText n) ++
  match offset with
    | none => []
    | some n => " OFFSET " ++ natText n

/-- What MySQL reads as paging: a LIMIT, perhaps with an OFFSET behind it, or
nothing. -/
inductive PagingText : Text → Prop
  | none : PagingText []
  | limit (n : Nat) : PagingText (" LIMIT " ++ natText n)
  | offset (n m : Nat) : PagingText (" LIMIT " ++ natText n ++ " OFFSET " ++ natText m)

theorem PagingText.second {t : Text} (h : PagingText t) : t[1]? = Option.none ∨ t[1]? = some 'L' := by
  cases h with
  | none => exact .inl rfl
  | limit n => exact .inr rfl
  | offset n m => exact .inr rfl

/-- Only an offset without a limit is no paging. -/
theorem pagingText_iff (limit offset : Option Nat) :
    PagingText (pagingText limit offset) ↔ (limit = none → offset = none) := by
  cases limit with
  | none => cases offset with
    | none => exact iff_of_true .none fun _ => rfl
    | some n =>
      refine iff_of_false (fun h => ?_) (by simp)
      have hoffset : (pagingText none (some n))[1]? = some 'O' := rfl
      rcases h.second with hnone | hlimit
      · rw [hoffset] at hnone
        cases hnone
      · rw [hoffset] at hlimit
        exact absurd hlimit (by decide)
  | some m => cases offset with
    | none =>
      refine iff_of_true ?_ (by simp)
      change PagingText (" LIMIT ".toList ++ natText m ++ [])
      rw [List.append_nil]
      exact .limit m
    | some n =>
      refine iff_of_true ?_ (by simp)
      change PagingText (" LIMIT ".toList ++ natText m ++ (" OFFSET ".toList ++ natText n))
      rw [← List.append_assoc]
      exact .offset m n

namespace Statements

/-- Statements without their paging. -/
def unpaged (st : Statements) : Statements := { st with limit := none, offset := none }

/-- How a SELECT ends, with its paging behind its ordering. -/
theorem orderingText_eq (st : Statements) :
    st.orderingText p = st.unpaged.orderingText p ++
      pagingText (st.limit.map UInt64.toNat) (st.offset.map UInt64.toNat) := by
  have hunpaged : st.unpaged.orderingText p = listClause " ORDER BY " (st.sortKeys.map (·.text p)) := by
    simp [orderingText, unpaged, numberClause]
  rw [hunpaged, orderingText, List.append_assoc]
  cases st.limit <;> cases st.offset <;> rfl

/-- The paging of a SELECT is its end, and nothing else depends on it. -/
theorem select_paged (st : Statements) :
    Alike (fun body q => q.sql =
        body.sql ++ pagingText (st.limit.map UInt64.toNat) (st.offset.map UInt64.toNat) ∧
      q.bindings = body.bindings) (st.unpaged.select p) (st.select p) := by
  rw [select_eq, select_eq]
  refine AlikeBy.bind_same Eq.refl fun source => ⟨?_, rfl⟩
  let head := st.selected (st.projectionText p) source
  change (head ++ ofText (st.orderingText p)).sql = (head ++ ofText (st.unpaged.orderingText p)).sql ++ _
  rw [orderingText_eq]
  simp only [Fragment.sql_append, Fragment.sql_ofText, List.append_assoc]

theorem unpaged_push (st : Statements) (s : Statement) :
    (st.push s).unpaged = if s.part = .paging then st.unpaged else st.unpaged.push s := by
  cases s <;> rfl

theorem unpaged_pushAll (st : Statements) (ss : List Statement) :
    (st.pushAll ss).unpaged = st.unpaged.pushAll (ss.filter fun s => s.part ≠ .paging) := by
  induction ss generalizing st with
  | nil => rfl
  | cons s ss ih =>
    change ((st.push s).pushAll ss).unpaged = _
    rw [ih, unpaged_push]
    by_cases hs : s.part = .paging
    · simp [hs]
    · simp [hs, pushAll]

/-- Statements for other parts leave the paging as it is. -/
theorem paging_pushAll {ss : List Statement} (h : ∀ s ∈ ss, s.part ≠ .paging) (st : Statements) :
    (st.pushAll ss).limit = st.limit ∧ (st.pushAll ss).offset = st.offset := by
  have hlimit : ss.filterMap Statement.limit? = [] := by
    refine List.filterMap_eq_nil_iff.mpr fun s hs => ?_
    cases s <;> first | rfl | exact absurd rfl (h _ hs)
  have hoffset : ss.filterMap Statement.offset? = [] := by
    refine List.filterMap_eq_nil_iff.mpr fun s hs => ?_
    cases s <;> first | rfl | exact absurd rfl (h _ hs)
  have hgrown := st.grown_pushAll ss
  exact ⟨by rw [hgrown.limit, hlimit]; rfl, by rw [hgrown.offset, hoffset]; rfl⟩

end Statements

/-- How many rows the pages before a page have. A page and its size count as one
if they are zero. -/
def pageStart (page size : UInt64) : Nat := ((max page 1).toNat - 1) * (max size 1).toNat

/-- A page is set as long as its start fits in a word. -/
theorem Statement.pageOf_eq (page size : UInt64) :
    pageOf page size =
      if pageStart page size < 2 ^ 64 then .ok (.page (max size 1) (.ofNat (pageStart page size)))
      else .error (.statement (.pageTooFar (max page 1) (max size 1))) := by
  have hone : ∀ n : UInt64, (if n = 0 then 1 else n) = max n 1 := by
    intro n
    apply UInt64.toNat_inj.mp
    rw [UInt64.toNat_max]
    split
    next hn => subst hn; rfl
    next hn =>
      have hne : n.toNat ≠ 0 := fun h0 => hn (UInt64.toNat_inj.mp h0)
      exact (Nat.max_eq_left (Nat.one_le_iff_ne_zero.mpr hne)).symm
  simp only [pageOf, hone]
  rfl

theorem Statement.pageOf_eq_ok {page size : UInt64} {s : Statement} (h : pageOf page size = .ok s) :
    ∃ rows start, s = .page rows start ∧ rows.toNat = max size.toNat 1 ∧
      start.toNat = (max page.toNat 1 - 1) * max size.toNat 1 := by
  rw [pageOf_eq] at h
  split at h
  next hfits =>
    cases h
    refine ⟨_, _, rfl, UInt64.toNat_max size 1, ?_⟩
    rw [UInt64.toNat_ofNat_of_lt' hfits, pageStart, UInt64.toNat_max, UInt64.toNat_max]
    rfl
  · cases h

namespace Call

theorem part_of_mem_accepted {call : Call} {s : Statement} (h : s ∈ accepted call.statements) :
    s.part = call.part := part_of_mem_statements (mem_accepted.mp h)

/-- The limit a call sets. -/
def limit? : Call → Option Nat
  | .limit n => some n.toNat
  | .paginate _ size => some (max size.toNat 1)
  | _ => none

/-- The offset a call sets. -/
def offset? : Call → Option Nat
  | .offset n => some n.toNat
  | .paginate page size => some ((max page.toNat 1 - 1) * max size.toNat 1)
  | _ => none

end Call

namespace Builder

/-- A call that is not refused sets what it says, and leaves the rest of the
paging as it is. -/
theorem apply_paging {b : Builder} {call : Call} (h : refusals call.statements = []) :
    (b.apply call).statements.limit.map UInt64.toNat =
        call.limit?.or (b.statements.limit.map UInt64.toNat) ∧
      (b.apply call).statements.offset.map UInt64.toNat =
        call.offset?.or (b.statements.offset.map UInt64.toNat) := by
  rw [apply_eq]
  have hother (hcall : call.part ≠ .paging) : ∀ s ∈ accepted call.statements, s.part ≠ .paging :=
    fun s hs => by rwa [Call.part_of_mem_accepted hs]
  cases call with
  | limit n => exact ⟨rfl, rfl⟩
  | offset n => exact ⟨rfl, rfl⟩
  | paginate page size =>
    cases hpage : Statement.pageOf page size with
    | error e => simp [Call.statements, hpage] at h
    | ok s =>
      obtain ⟨rows, start, rfl, hrows, hstart⟩ := Statement.pageOf_eq_ok hpage
      simp [Call.statements, hpage, Statements.pushAll, Statements.push, Call.limit?, Call.offset?,
        hrows, hstart]
  | _ =>
    obtain ⟨hlimit, hoffset⟩ := Statements.paging_pushAll (hother (by simp [Call.part])) b.statements
    simp [hlimit, hoffset, Call.limit?, Call.offset?]

/-- Without an error, limit and offset are those of the last calls that set them. -/
theorem paging_applyAll {b : Builder} {calls : List Call}
    (h : refusals (calls.flatMap Call.statements) = []) :
    (b.applyAll calls).statements.limit.map UInt64.toNat =
        (calls.filterMap Call.limit?).getLast?.or (b.statements.limit.map UInt64.toNat) ∧
      (b.applyAll calls).statements.offset.map UInt64.toNat =
        (calls.filterMap Call.offset?).getLast?.or (b.statements.offset.map UInt64.toNat) := by
  induction calls generalizing b with
  | nil => exact ⟨rfl, rfl⟩
  | cons call calls ih =>
    rw [List.flatMap_cons, refusals_append, List.append_eq_nil_iff] at h
    obtain ⟨hlimit, hoffset⟩ := apply_paging (b := b) h.1
    obtain ⟨hlimits, hoffsets⟩ := ih (b := b.apply call) h.2
    have hlast : ∀ (setting? : Call → Option Nat) (before : Option Nat),
        ((call :: calls).filterMap setting?).getLast?.or before =
          (calls.filterMap setting?).getLast?.or ((setting? call).or before) := by
      intro setting? before
      cases hset : setting? call <;> simp [hset, List.getLast?_cons]
    exact ⟨by rw [hlast, ← hlimit]; exact hlimits, by rw [hlast, ← hoffset]; exact hoffsets⟩

theorem refusals_eq_nil_of_error {b : Builder} {calls : List Call} (h : (b.applyAll calls).error = none) :
    b.error = none ∧ refusals (calls.flatMap Call.statements) = [] := by
  rw [applyAll_eq_record] at h
  simpa using h

/-- The calls of a run that are not for its paging. -/
def unpagedCalls (calls : List Call) : List Call := calls.filter fun call => call.part ≠ .paging

/-- Calls for the paging write nothing else. -/
theorem statements_unpagedCalls (b : Builder) (calls : List Call) :
    (b.applyAll calls).statements.unpaged =
      ({ b with statements := b.statements.unpaged }.applyAll (unpagedCalls calls)).statements := by
  rw [statements_applyAll, statements_applyAll]
  generalize b.statements = st
  induction calls generalizing st with
  | nil => rfl
  | cons call calls ih =>
    rw [List.foldl_cons, ih, Statements.unpaged_pushAll]
    by_cases hcall : call.part = .paging
    · have hnone : (accepted call.statements).filter (fun s => s.part ≠ .paging) = [] := by
        refine List.filter_eq_nil_iff.mpr fun s hs => ?_
        simp [Call.part_of_mem_accepted hs, hcall]
      rw [hnone]
      simp [unpagedCalls, hcall, Statements.pushAll]
    · have hall : (accepted call.statements).filter (fun s => s.part ≠ .paging) =
          accepted call.statements := by
        refine List.filter_eq_self.mpr fun s hs => ?_
        simp [Call.part_of_mem_accepted hs, hcall]
      rw [hall]
      simp [unpagedCalls, hcall]

theorem error_unpagedCalls {config : Config} {calls : List Call}
    (h : (applyAll { config } calls).error = none) :
    (applyAll { config } (unpagedCalls calls)).error = none := by
  have hrefusals := refusals_eq_nil.mp (refusals_eq_nil_of_error h).2
  have hnone : refusals ((unpagedCalls calls).flatMap Call.statements) = [] := by
    refine refusals_eq_nil.mpr fun e he => ?_
    obtain ⟨call, hcall, hmem⟩ := List.mem_flatMap.mp he
    exact hrefusals e (List.mem_flatMap.mpr ⟨call, List.mem_of_mem_filter hcall, hmem⟩)
  rw [applyAll_eq_record, hnone]
  rfl

/-- The SELECT of a run of calls is that of the calls that are not for its paging,
with the paging behind it. -/
theorem query_paged {config : Config} {calls : List Call}
    (h : (applyAll { config } calls).error = none) :
    Alike (fun body q => q.sql = body.sql ++ pagingText (calls.filterMap Call.limit?).getLast?
        (calls.filterMap Call.offset?).getLast? ∧ q.bindings = body.bindings)
      ((applyAll { config } (unpagedCalls calls)).query .select)
      ((applyAll { config } calls).query .select) := by
  rw [query_select h, query_select (error_unpagedCalls h), config_applyAll, config_applyAll]
  have hstatements := statements_unpagedCalls { config } calls
  change _ = (applyAll { config } (unpagedCalls calls)).statements at hstatements
  obtain ⟨hlimit, hoffset⟩ := paging_applyAll (b := { config }) (refusals_eq_nil_of_error h).2
  simp only [Option.map_none, Option.or_none] at hlimit hoffset
  rw [← hstatements, ← hlimit, ← hoffset]
  exact Statements.select_paged _

end Builder

/-- An action for one query sends the query if it is compiled. -/
theorem Run.sent_action (x : Executor) {b : Builder} {a : Action} {r : Builder.Request}
    (ha : a.request? = some r) {q : Query} (hq : (a.builder b).query r = .ok q) (s : Session) :
    ((action x b a).eval s).2.sent = s.sent ++ [q] := by
  rcases eval_action x b ha s with ⟨e, hquery, -⟩ | ⟨q', hquery, heval⟩
  · rw [hq] at hquery
    cases hquery
  · rw [hq] at hquery
    cases hquery
    rw [heval, Session.sent_extend, List.filterMap_cons, sent_exchange]
    rfl

namespace Builder

/-- **The paging of a query is valid unless an offset is all there is to it.**
Take any run of calls that comes to a SELECT. The query is that of the other
calls, with the paging behind it: the limit and the offset last set. This is
paging by MySQL's grammar exactly if no offset is set, or a limit is, by a call
of its own or by paginating. Asking for the first row sends one query, which has
the limit 1 instead, so its paging is always valid. -/
theorem paging_valid (config : Config) (calls : List Call) {q : Query}
    (h : (applyAll { config } calls).query .select = .ok q) :
    let limit := (calls.filterMap Call.limit?).getLast?
    let offset := (calls.filterMap Call.offset?).getLast?
    ∃ body, (applyAll { config } (unpagedCalls calls)).query .select = .ok body ∧
      q.sql = body.sql ++ pagingText limit offset ∧ q.bindings = body.bindings ∧
      (PagingText (pagingText limit offset) ↔
        ∀ n, .offset n ∈ calls → ∃ call ∈ calls, call.limit?.isSome) ∧
      ∀ (x : Executor) (s : Session), ∃ one,
        ((Run.action x (applyAll { config } calls) .firstRow).eval s).2.sent = s.sent ++ [one] ∧
        one.sql = body.sql ++ pagingText (some 1) offset ∧ one.bindings = body.bindings ∧
        PagingText (pagingText (some 1) offset) := by
  intro limit offset
  have hnone := error_eq_none h
  have hpaged := query_paged hnone
  obtain ⟨body, hbody⟩ : ∃ body, (applyAll { config } (unpagedCalls calls)).query .select = .ok body := by
    cases hbody : (applyAll { config } (unpagedCalls calls)).query .select with
    | ok body => exact ⟨body, rfl⟩
    | error e =>
      have herror := hpaged.error_iff.mp hbody
      rw [h] at herror
      cases herror
  obtain ⟨q', hq', hsql, hbindings⟩ := hpaged.of_ok hbody
  obtain rfl : q = q' := Except.ok.inj (h.symm.trans hq')
  refine ⟨body, hbody, hsql, hbindings, ?_, fun x s => ?_⟩
  · rw [pagingText_iff]
    simp only [limit, offset, List.getLast?_eq_none_iff, List.filterMap_eq_nil_iff]
    constructor
    · intro hvalid n hn
      by_contra hlimits
      push Not at hlimits
      cases hvalid (fun call hcall => by simpa using hlimits call hcall) _ hn
    · intro hlimits hnolimit call hcall
      have hset : ∀ call ∈ calls, call.limit?.isSome = false := by
        intro call hcall
        rw [hnolimit call hcall]
        rfl
      cases call with
      | offset n =>
        obtain ⟨other, hother, hsome⟩ := hlimits n hcall
        rw [hset other hother] at hsome
        cases hsome
      | paginate page size => cases hset _ hcall
      | _ => rfl
  · have hcalls : (applyAll { config } calls).apply (.limit 1) =
        applyAll { config } (calls ++ [.limit 1]) := by
      simp [applyAll]
    have herror : (applyAll { config } (calls ++ [.limit 1])).error = none := by
      rw [← hcalls, apply_eq, hnone]
      rfl
    have hsame : unpagedCalls (calls ++ [.limit 1]) = unpagedCalls calls := by
      simp [unpagedCalls, Call.part]
    have hlimit : ((calls ++ [Call.limit 1]).filterMap Call.limit?).getLast? = some 1 := by
      rw [List.filterMap_append]
      exact List.getLast?_concat
    have hoffset : ((calls ++ [Call.limit 1]).filterMap Call.offset?).getLast? = offset := by
      simp [Call.offset?, offset]
    have hone := query_paged herror
    rw [hsame, hlimit, hoffset] at hone
    obtain ⟨one, hq, honesql, honebindings⟩ := hone.of_ok hbody
    refine ⟨one, ?_, honesql, honebindings, (pagingText_iff _ _).mpr (by simp)⟩
    exact Run.sent_action x (a := .firstRow) rfl (by rw [← hcalls] at hq; exact hq) s

/-- A page, an offset for it, and a limit again. -/
theorem paging_valid_sample :
    let calls : List Call := [.paginate 3 10, .tables [(.column (.name "users"), none)], .offset 5,
      .filter (.compare .and (.column (.name "age")) ">" (.plain (.int 17))), .limit 7]
    ∃ q body, (applyAll {} calls).query .select = .ok q ∧
      (applyAll {} (unpagedCalls calls)).query .select = .ok body ∧
      q.sql = body.sql ++ " LIMIT 7 OFFSET 5" ∧ PagingText " LIMIT 7 OFFSET 5" ∧
      ∃ one, ((Run.action (Script.executor {}) (applyAll {} calls) .firstRow).eval {}).2.sent = [one] ∧
        one.sql = body.sql ++ " LIMIT 1 OFFSET 5" := by
  intro calls
  obtain ⟨q, hq⟩ : ∃ q, (applyAll {} calls).query .select = .ok q := ⟨_, rfl⟩
  obtain ⟨body, hbody, hsql, -, hvalid, hfirst⟩ := paging_valid {} calls hq
  obtain ⟨one, hsent, hone, -⟩ := hfirst (Script.executor {}) {}
  refine ⟨q, body, hq, hbody, hsql, hvalid.mpr fun _ _ => ⟨.limit 7, by simp [calls], rfl⟩, one, hsent, hone⟩

/-- An offset and nothing else is written as an OFFSET without a LIMIT. -/
theorem offset_without_limit :
    let calls : List Call := [.tables [(.column (.name "t"), none)], .offset 5]
    ∃ q body, (applyAll {} calls).query .select = .ok q ∧
      (applyAll {} (unpagedCalls calls)).query .select = .ok body ∧
      body.sql = "SELECT * FROM t".toList ∧ q.sql = body.sql ++ " OFFSET 5" ∧
      ¬ PagingText " OFFSET 5" := by
  refine ⟨_, _, rfl, rfl, rfl, rfl, fun h => ?_⟩
  exact absurd ((pagingText_iff none (some 5)).mp h rfl) (by decide)

end Builder

end BoundSql
