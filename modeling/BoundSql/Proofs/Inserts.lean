/-
The text of an insert, item by item.

An insert has one item for each column: the placeholder of the next binding, raw
SQL, or NULL (`Items`). Behind the values stand the assignments for a duplicate
key, one for each entry of the row that is stored for it.

MySQL takes these assignments behind an INSERT only. They are stored for all
inserts of a builder and written whatever its mode, so an insert keeps to the
grammar of its mode (`InsertText`) unless it is a REPLACE with a row stored
(`insert_keeps_grammar`).
-/
import BoundSql.Proofs.Batches
import BoundSql.Proofs.Bindings

namespace BoundSql

open Fragment (ofText)

variable {p : TablePrefix}

/-! ## Values as items -/

/-- What values are written as, in order, with the bindings of the placeholders:
each one is the placeholder of the next binding, raw SQL, or NULL. -/
inductive Items : List Value → List Text → List Binding → Prop
  | nil : Items [] [] []
  | bound {v : Value} {b : Binding} {vs : List Value} {ts : List Text} {bs : List Binding} :
      v.binding? = some b → b.isSqlNull = false → Items vs ts bs →
      Items (v :: vs) (b.placeholder.text :: ts) (b :: bs)
  | raw (f : Fragment) {vs : List Value} {ts : List Text} {bs : List Binding} :
      Items vs ts bs → Items (.raw f :: vs) (f.inlined :: ts) bs
  | null {v : Value} {vs : List Value} {ts : List Text} {bs : List Binding} :
      v.isRaw = false → v.bindings = [] → Items vs ts bs → Items (v :: vs) ("NULL" :: ts) bs

namespace Items

variable {vs : List Value} {ts ts' : List Text} {bs bs' : List Binding}

theorem length_eq (h : Items vs ts bs) : ts.length = vs.length := by
  induction h with
  | nil => rfl
  | bound _ _ _ ih | raw _ _ ih | null _ _ _ ih => simp [ih]

theorem fragments (vs : List Value) :
    Items vs (vs.map fun v => v.fragment.sql) (vs.flatMap fun v => v.fragment.bindings) := by
  induction vs with
  | nil => exact .nil
  | cons v vs ih =>
    rw [List.map_cons, List.flatMap_cons]
    rcases v.fragment_cases with ⟨f, rfl, hf⟩ | ⟨b, hb, hf⟩ | ⟨hraw, hb, hf⟩
    · rw [hf]
      exact .raw f ih
    · cases hnull : b.isSqlNull with
      | false =>
        rw [hf, hnull]
        exact .bound hb hnull ih
      | true =>
        rw [hf, hnull]
        refine .null ?_ ?_ ih
        · cases v <;> first | rfl | cases hb
        · simp [Value.bindings, hb, hnull]
    · rw [hf]
      exact .null hraw (by simp [Value.bindings, hb]) ih

/-- There is one way to write values. -/
theorem unique (h : Items vs ts bs) (h' : Items vs ts' bs') : ts = ts' ∧ bs = bs' := by
  induction h generalizing ts' bs' with
  | nil =>
    cases h'
    exact ⟨rfl, rfl⟩
  | @bound v b vs ts bs hb hnull _ ih =>
    cases h' with
    | @bound _ b' _ _ _ hb' _ hrest =>
      obtain rfl : b = b' := Option.some.inj (hb.symm.trans hb')
      obtain ⟨rfl, rfl⟩ := ih hrest
      exact ⟨rfl, rfl⟩
    | raw => cases hb
    | null _ hnone => simp [Value.bindings, hb, hnull] at hnone
  | raw f _ ih =>
    cases h' with
    | bound hb => cases hb
    | raw _ hrest =>
      obtain ⟨rfl, rfl⟩ := ih hrest
      exact ⟨rfl, rfl⟩
    | null hraw => cases hraw
  | null hraw hnone _ ih =>
    cases h' with
    | bound hb hnull => simp [Value.bindings, hb, hnull] at hnone
    | raw => cases hraw
    | null _ _ hrest =>
      obtain ⟨rfl, rfl⟩ := ih hrest
      exact ⟨rfl, rfl⟩

end Items

/-! ## Inserts -/

def Row.values (row : Row) : List Value := row.map (·.2)

theorem Items.length_keys {row : Row} {items : List Text} {bs : List Binding}
    (h : Items row.values items bs) : items.length = row.keys.length := by
  rw [h.length_eq, Row.values, Row.keys, List.length_map, List.length_map]

/-- The assignment of an item to a column. -/
def assignmentText (key item : Text) : Text := key ++ "=" ++ item

/-- The assignments for a duplicate key, one for each column; none has no clause. -/
def updateClause (keys items : List Text) : Text :=
  listClause " ON DUPLICATE KEY UPDATE " (List.zipWith assignmentText keys items)

/-- An insert by MySQL's grammar for its mode, with its bindings: a row, and
perhaps the assignments of a stored row, but not behind a REPLACE. -/
inductive InsertText (mode : InsertMode) (target : Text) (row stored : Row) :
    Text → List Binding → Prop
  | values {items : List Text} {bs : List Binding} : Items row.values items bs →
      InsertText mode target row stored
        (insertHead mode target row.keys ++ Text.joined "," items ++ ")") bs
  | orUpdate {items updates : List Text} {bs us : List Binding} : mode ≠ .replace →
      Items row.values items bs → Items stored.values updates us →
      InsertText mode target row stored
        (insertHead mode target row.keys ++ Text.joined "," items ++ ")" ++
          updateClause stored.keys updates) (bs ++ us)

theorem length_updateClause_pos {keys items : List Text} (h : items.length = keys.length)
    (hne : keys ≠ []) : 0 < (updateClause keys items).length := by
  obtain ⟨key, keys, rfl⟩ := List.exists_cons_of_ne_nil hne
  obtain ⟨item, items, rfl⟩ := List.exists_cons_of_length_eq_add_one h
  simp [updateClause, listClause]

namespace Statements

variable {st : Statements} {row : Row} {mode : InsertMode}

theorem insertRow_eq_ok {q : Query} (h : st.insertRow p row mode = .ok q) :
    ∃ target, st.targetText p = .ok target ∧ q = st.rowQuery target mode row := by
  obtain ⟨target, htarget, hrest⟩ := Except.bind_ok_iff.mp h
  obtain ⟨_, hcheck, -⟩ := Except.bind_ok_iff.mp hrest
  rw [insertRow_of_check htarget hcheck] at h
  exact ⟨target, htarget, (Except.ok.inj h).symm⟩

/-- What is written for a stored row: an assignment of each of its items. -/
def updateFragment (stored : Row) : Fragment :=
  if stored.isEmpty then .empty else ofText " ON DUPLICATE KEY UPDATE " ++ stored.assignments

theorem sql_updateFragment (stored : Row) : (updateFragment stored).sql =
    updateClause stored.keys (stored.values.map fun v => v.fragment.sql) := by
  have hassignments : stored.map (fun entry => (assignment entry).sql) = List.zipWith assignmentText
      stored.keys (stored.values.map fun v => v.fragment.sql) := by
    rw [Row.keys, Row.values, List.map_map, List.zipWith_map, List.zipWith_self]
    rfl
  rw [updateClause, ← hassignments, listClause, updateFragment]
  cases stored with
  | nil => rfl
  | cons entry stored =>
    simp only [List.isEmpty_cons, List.map_cons, Bool.false_eq_true, if_false, Row.assignments,
      Fragment.sql_append, Fragment.sql_ofText, Fragment.sql_joined, List.map_map]
    rfl

theorem bindings_updateFragment (stored : Row) :
    (updateFragment stored).bindings = stored.values.flatMap fun v => v.fragment.bindings := by
  cases stored with
  | nil => rfl
  | cons entry stored =>
    simp [updateFragment, Row.assignments, Fragment.bindings_joined, Row.values, assignment,
      List.flatMap_map]

/-- An insert is written with the items of its row and those of the stored row. -/
theorem rowQuery_items (st : Statements) (target : Text) (mode : InsertMode) (row : Row) :
    ∃ items updates bs us, Items row.values items bs ∧ Items st.onDuplicate.values updates us ∧
      (st.rowQuery target mode row).sql = insertHead mode target row.keys ++ Text.joined "," items ++
        ")" ++ updateClause st.onDuplicate.keys updates ∧
      (st.rowQuery target mode row).bindings = bs ++ us := by
  have hquery : (st.rowQuery target mode row).text = ofText (insertHead mode target row.keys) ++
      Fragment.joined "," (row.values.map Value.fragment) ++ ofText ")" ++ updateFragment st.onDuplicate := by
    rw [Row.values, List.map_map]
    rfl
  refine ⟨_, _, _, _, .fragments row.values, .fragments st.onDuplicate.values, ?_, ?_⟩
  · rw [Query.sql, hquery, Fragment.sql_append, sql_updateFragment, Fragment.sql_append,
      Fragment.sql_append, Fragment.sql_joined, List.map_map]
    rfl
  · rw [Query.bindings, hquery, Fragment.bindings_append, bindings_updateFragment]
    simp [Fragment.bindings_joined, List.flatMap_map]

/-- The one thing against the grammar is a row that is stored for a REPLACE. -/
theorem insertText_rowQuery (st : Statements) (target : Text) (mode : InsertMode) (row : Row) :
    InsertText mode target row st.onDuplicate (st.rowQuery target mode row).sql
        (st.rowQuery target mode row).bindings ↔ (mode = .replace → st.onDuplicate = []) := by
  obtain ⟨items, updates, bs, us, hitems, hupdates, hsql, hbindings⟩ := st.rowQuery_items target mode row
  rw [hsql, hbindings]
  constructor
  · intro hgrammar hmode
    by_contra hstored
    have hpos := length_updateClause_pos hupdates.length_keys (by simpa [Row.keys] using hstored)
    generalize htext : insertHead mode target row.keys ++ Text.joined "," items ++ ")" ++
      updateClause st.onDuplicate.keys updates = text at hgrammar
    generalize bs ++ us = bindings at hgrammar
    cases hgrammar with
    | values hitems' =>
      -- the items are the same, so the clause would have to be empty
      obtain ⟨rfl, -⟩ := hitems.unique hitems'
      have hlengths := congrArg List.length htext
      simp only [List.length_append] at hlengths
      omega
    | orUpdate hne => exact hne hmode
  · intro hmode
    by_cases hreplace : mode = .replace
    · have hstored := hmode hreplace
      rw [hstored] at hupdates ⊢
      cases hupdates
      have hclause : updateClause (Row.keys []) [] = [] := rfl
      rw [hclause, List.append_nil, List.append_nil]
      exact .values hitems
    · exact .orUpdate hreplace hitems hupdates

/-- **An insert keeps to the grammar of its mode, unless a REPLACE updates.** The
SQL of an insert is its mode, its table, the columns of its row, and an item for
each, in order; behind it stands an assignment for each entry of the row stored
for a duplicate key. The bindings are those of the placeholders, in order. The
grammar of the mode is kept exactly if no row is stored or the mode is not
REPLACE. -/
theorem insert_keeps_grammar {q : Query} (h : st.insertRow p row mode = .ok q) :
    ∃ target items updates bs us, st.targetText p = .ok target ∧
      Items row.values items bs ∧ items.length = row.keys.length ∧
      Items st.onDuplicate.values updates us ∧ updates.length = st.onDuplicate.keys.length ∧
      q.sql = insertHead mode target row.keys ++ Text.joined "," items ++ ")" ++
        updateClause st.onDuplicate.keys updates ∧
      q.bindings = bs ++ us ∧
      (InsertText mode target row st.onDuplicate q.sql q.bindings ↔
        (mode = .replace → st.onDuplicate = [])) := by
  obtain ⟨target, htarget, rfl⟩ := insertRow_eq_ok h
  obtain ⟨items, updates, bs, us, hitems, hupdates, hsql, hbindings⟩ := st.rowQuery_items target mode row
  exact ⟨target, items, updates, bs, us, htarget, hitems, hitems.length_keys, hupdates,
    hupdates.length_keys, hsql, hbindings, st.insertText_rowQuery target mode row⟩

/-- Bound, NULL and raw values in a row, and a bound and a raw one stored. -/
theorem insert_keeps_grammar_sample :
    let stored : Row := [("n", .plain (.int 1)), ("at", .raw (ofText "NOW()"))]
    let st : Statements := { tables := [⟨.named "users", none⟩], onDuplicate := stored }
    ∃ q, st.insertRow {} Row.sample .insertIgnore = .ok q ∧
      q.sql = "INSERT IGNORE INTO users (name,age,rank) VALUES (%s,NULL,3 + 1)".toList ++
        " ON DUPLICATE KEY UPDATE n=%d, at=NOW()".toList ∧
      q.bindings.map Binding.literal = ["'100%s'".toList, "1".toList] ∧
      InsertText .insertIgnore "users" Row.sample stored q.sql q.bindings := by
  intro stored st
  obtain ⟨q, hq⟩ : ∃ q, st.insertRow {} Row.sample .insertIgnore = .ok q := ⟨_, rfl⟩
  have hparts : (st.insertRow {} Row.sample .insertIgnore).map (fun q =>
        (q.sql, q.bindings.map Binding.literal)) =
      .ok ("INSERT IGNORE INTO users (name,age,rank) VALUES (%s,NULL,3 + 1)".toList ++
        " ON DUPLICATE KEY UPDATE n=%d, at=NOW()".toList, ["'100%s'".toList, "1".toList]) := by
    decide +kernel
  obtain ⟨hsql, hliterals⟩ := Prod.mk.inj (Except.ok.inj (hq ▸ hparts))
  obtain ⟨target, items, updates, bs, us, htarget, -, -, -, -, -, -, hgrammar⟩ := insert_keeps_grammar hq
  cases htarget
  exact ⟨q, hq, hsql, hliterals, hgrammar.mpr nofun⟩

/-- A REPLACE is written with the row stored for a duplicate key. -/
theorem replace_with_updates :
    let stored : Row := [("hits", .raw (ofText "hits + 1"))]
    let row : Row := [("name", .plain (.string "home"))]
    let st : Statements := { tables := [⟨.named "counters", none⟩], onDuplicate := stored }
    ∃ q, st.insertRow {} row .replace = .ok q ∧
      q.sql = "REPLACE INTO counters (name) VALUES (%s) ON DUPLICATE KEY UPDATE hits=hits + 1".toList ∧
      ¬ InsertText .replace "counters" row stored q.sql q.bindings := by
  intro stored row st
  have hsql : (st.rowQuery "counters" .replace row).sql =
      "REPLACE INTO counters (name) VALUES (%s) ON DUPLICATE KEY UPDATE hits=hits + 1".toList := by
    decide +kernel
  refine ⟨_, insertRow_of_check rfl rfl, hsql, fun h => ?_⟩
  have hstored := (st.insertText_rowQuery "counters" .replace row).mp h rfl
  cases hstored

end Statements

end BoundSql
