/-
The names of columns and of tables, resolved.

A name written as a selector becomes the expression that reads the value; any
other name is kept, perhaps with the prefix in front (`Resolves`). What comes out
is no selector, and the prefix is not put in front of it again, so resolving it
once more changes nothing (`Column.resolved_once`).

A table always gets the prefix, and a column of the table gets it unless it
begins with it. So a column and its table are given the same name exactly if the
column does not begin with the prefix by itself (`Column.named_as_table`).
-/
import BoundSql.Criterion.Basic
import BoundSql.Proofs.LiteralFacts
import BoundSql.Proofs.Selectors
import BoundSql.Statement.Basic

namespace BoundSql

open Selector (IsPart readable parse)
open Text (Arrowless)
open TablePrefix (isNameChar isQualified)

variable {p : TablePrefix}

/-! ## Fields -/

/-- A name that is no qualified column, or begins with the prefix, is kept. -/
theorem TablePrefix.field_eq_self {name : Text}
    (h : isQualified name = true → ∀ pre ∈ p.text, pre <+: name) : p.field name = name := by
  unfold field
  split
  · rfl
  next pre hpre =>
    split
    next hput =>
      simp only [Bool.and_eq_true, Bool.not_eq_true', Bool.eq_false_iff, ne_eq,
        List.isPrefixOf_iff_prefix] at hput
      exact absurd (h hput.1 pre hpre) hput.2
    · rfl

/-- Any other gets the prefix. -/
theorem TablePrefix.field_of_qualified {pre name : Text} (h : p.text = some pre)
    (hqualified : isQualified name = true) (hbegins : ¬ pre <+: name) : p.field name = pre ++ name := by
  have hprefix : pre.isPrefixOf name = false := by
    rw [Bool.eq_false_iff, ne_eq, List.isPrefixOf_iff_prefix]
    exact hbegins
  simp [field, h, hqualified, hprefix]

theorem isNameChar_of_isQualified {t : Text} (h : isQualified t = true) : ∀ c ∈ t, isNameChar c = true := by
  simp only [isQualified, Bool.and_eq_true] at h
  exact List.all_eq_true.mp h.1.2

theorem not_isQualified_of_mem {t : Text} {c : Char} (hc : c ∈ t) (hname : isNameChar c = false) :
    isQualified t = false := by
  rw [Bool.eq_false_iff]
  intro h
  rw [isNameChar_of_isQualified h c hc] at hname
  cases hname

theorem Text.Arrowless.of_isQualified {t : Text} (h : isQualified t = true) : Arrowless t := by
  refine Text.arrowless_of_not_mem fun hdash => ?_
  exact absurd (isNameChar_of_isQualified h '-' hdash) (by decide)

/-- A qualified column does not go on with an arrow that the prefix begins. -/
theorem Text.Arrowless.append_qualified {pre t : Text} (hpre : Arrowless pre) (h : isQualified t = true) :
    Arrowless (pre ++ t) := by
  refine hpre.append (.of_isQualified h) (.inr fun hhead => ?_)
  exact absurd (isNameChar_of_isQualified h '>' (List.mem_of_head? hhead)) (by decide)

theorem TablePrefix.arrowless_field (hp : ∀ pre ∈ p.text, Arrowless pre) {name : Text}
    (h : Arrowless name) : Arrowless (p.field name) := by
  by_cases hkept : isQualified name = true → ∀ pre ∈ p.text, pre <+: name
  · rwa [field_eq_self hkept]
  · push Not at hkept
    obtain ⟨hqualified, pre, hpre, hbegins⟩ := hkept
    rw [field_of_qualified hpre hqualified hbegins]
    exact (hp pre hpre).append_qualified hqualified

/-! ## Values inside JSON columns -/

/-- The expression that reads the value below some nodes of a column. -/
def jsonValue (column : Text) (nodes : List Text) : Text :=
  "JSON_UNQUOTE(JSON_EXTRACT(" ++ column ++ ", \"$." ++ Text.joined "." nodes ++ "\"))"

theorem Selector.expression_eq_jsonValue (s : Selector) (p : TablePrefix) :
    s.expression p = jsonValue (p.field s.column) s.nodes := by
  have hopen : "JSON_UNQUOTE(JSON_EXTRACT(".toList = "JSON_UNQUOTE(".toList ++ "JSON_EXTRACT(".toList := rfl
  have hpath : ", \"$.".toList = ", \"".toList ++ "$.".toList := rfl
  have hclose : "\"))".toList = "\")".toList ++ ")".toList := rfl
  unfold expression extract path jsonValue
  rw [hopen, hpath, hclose]
  simp only [List.append_assoc]

theorem jsonValue_inj {column column' : Text} {nodes : List Text} :
    jsonValue column nodes = jsonValue column' nodes ↔ column = column' := by
  unfold jsonValue
  rw [List.append_left_inj, List.append_left_inj, List.append_left_inj, List.append_right_inj]

theorem not_isQualified_jsonValue (column : Text) (nodes : List Text) :
    isQualified (jsonValue column nodes) = false := by
  have hopen : '(' ∈ "JSON_UNQUOTE(JSON_EXTRACT(".toList := by decide
  refine not_isQualified_of_mem (c := '(') ?_ rfl
  unfold jsonValue
  simp only [List.mem_append, hopen, true_or]

/-- The expression has no arrow in it: what stands around the column and the
nodes neither ends nor begins with half of one. -/
theorem arrowless_jsonValue {column : Text} {nodes : List Text} (hcolumn : Arrowless column)
    (hnodes : ∀ node ∈ nodes, Arrowless node) : Arrowless (jsonValue column nodes) := by
  have hopen : Arrowless "JSON_UNQUOTE(JSON_EXTRACT(" := by decide
  have hmiddle : Arrowless ", \"$." := by decide
  have hclose : Arrowless "\"))" := by decide
  have hpath : Arrowless (Text.joined "." nodes) :=
    .joined (by decide) (by decide) (by decide) (by decide) hnodes
  have hlast : ", \"$.".toList.getLast? ≠ some '-' := by decide
  unfold jsonValue
  refine Arrowless.append (Arrowless.append (Arrowless.append (Arrowless.append hopen hcolumn ?_)
    hmiddle ?_) hpath ?_) hclose ?_
  · exact .inl (by decide)
  · exact .inr (by decide)
  · refine .inl ?_
    rwa [List.getLast?_append_of_ne_nil _ (by decide)]
  · exact .inr (by decide)

/-! ## Names resolved once -/

/-- What a name becomes. -/
inductive Resolves (p : TablePrefix) : Text → Text → Prop
  /-- A selector becomes the expression for its value. -/
  | value {t : Text} {s : Selector} :
    readable t = true → parse t = .ok s → Resolves p t (jsonValue (p.field s.column) s.nodes)
  /-- The prefix is put in front of a qualified column that does not begin with it. -/
  | prefixed {t pre : Text} :
    readable t = false → isQualified t = true → p.text = some pre → ¬ pre <+: t → Resolves p t (pre ++ t)
  /-- All else is kept. -/
  | kept {t : Text} :
    readable t = false → (isQualified t = true → ∀ pre ∈ p.text, pre <+: t) → Resolves p t t

theorem Column.text_of_unreadable {t : Text} (h : readable t = false) :
    (Column.name t).text p = p.field t := by
  rw [text, Selector.parse_of_unreadable h]

theorem Column.text_of_parse {t : Text} {s : Selector} (h : parse t = .ok s) :
    (Column.name t).text p = jsonValue (p.field s.column) s.nodes := by
  rw [text, h]
  exact s.expression_eq_jsonValue p

theorem Column.resolves_text (t : Text) : Resolves p t ((Column.name t).text p) := by
  cases hreadable : readable t with
  | true =>
    obtain ⟨s, hs⟩ := Selector.exists_parse_iff.mpr hreadable
    rw [Column.text_of_parse hs]
    exact .value hreadable hs
  | false =>
    rw [Column.text_of_unreadable hreadable]
    by_cases hkept : isQualified t = true → ∀ pre ∈ p.text, pre <+: t
    · rw [TablePrefix.field_eq_self hkept]
      exact .kept hreadable hkept
    · push Not at hkept
      obtain ⟨hqualified, pre, hpre, hbegins⟩ := hkept
      rw [TablePrefix.field_of_qualified hpre hqualified hbegins]
      exact .prefixed hreadable hqualified hpre hbegins

namespace Resolves

variable {t r : Text}

/-- What a name has become is no selector. -/
theorem unreadable (h : Resolves p t r) (hp : ∀ pre ∈ p.text, Arrowless pre) : readable r = false := by
  cases h with
  | @value s _ hs =>
    obtain ⟨hproper, -⟩ := Selector.parse_eq_ok_iff.mp hs
    refine Selector.readable_of_arrowless (arrowless_jsonValue ?_ fun node hn => ?_)
    · exact TablePrefix.arrowless_field hp hproper.column.arrowless
    · exact (hproper.nodes node hn).arrowless
  | prefixed _ hqualified hpre _ =>
    exact Selector.readable_of_arrowless ((hp _ hpre).append_qualified hqualified)
  | kept hreadable _ => exact hreadable

/-- The prefix is not put in front of it again. -/
theorem field_eq_self (h : Resolves p t r) : p.field r = r := by
  cases h with
  | value _ _ =>
    refine TablePrefix.field_eq_self fun hqualified => ?_
    rw [not_isQualified_jsonValue] at hqualified
    cases hqualified
  | prefixed _ _ hpre _ =>
    refine TablePrefix.field_eq_self fun _ pre hpre' => ?_
    obtain rfl := Option.some.inj (hpre.symm.trans hpre')
    exact List.prefix_append _ _
  | kept _ hkept => exact TablePrefix.field_eq_self hkept

end Resolves

/-- **A resolved name stays as it is.** Whatever the name of a column is, it is
resolved, by the rule for its form, and unless the prefix has an arrow of its own
the outcome, taken as the name of a column, is resolved to itself. -/
theorem Column.resolved_once (hp : ∀ pre ∈ p.text, Arrowless pre) (t : Text) :
    ∃ r, (Field.column (.name t)).text p = .ok r ∧ Resolves p t r ∧
      (Field.column (.name r)).text p = .ok r := by
  have hresolves := Column.resolves_text (p := p) t
  refine ⟨(Column.name t).text p, rfl, hresolves, ?_⟩
  rw [Field.text, Column.text_of_unreadable (hresolves.unreadable hp), hresolves.field_eq_self]

/-- A selector with halves of arrows in its nodes, on a column that gets the
prefix. -/
theorem Column.resolved_once_sample :
    let p : TablePrefix := ⟨some "wp_"⟩
    let r : Text := "JSON_UNQUOTE(JSON_EXTRACT(wp_posts.meta, \"$.>seo.a-\"))"
    (Field.column (.name "posts.meta->>seo->a-")).text p = .ok r ∧
      (Field.column (.name r)).text p = .ok r := by
  intro p r
  have hp : ∀ pre ∈ p.text, Arrowless pre := by
    intro pre hpre
    obtain rfl := Option.some.inj hpre
    decide
  have hr : (Field.column (.name "posts.meta->>seo->a-")).text p = .ok r := rfl
  obtain ⟨r', hr', -, honce⟩ := Column.resolved_once hp "posts.meta->>seo->a-"
  obtain rfl := Except.ok.inj (hr.symm.trans hr')
  exact ⟨hr, honce⟩

/-- Under a prefix with an arrow, a column that got it is a selector next time. -/
example :
    let p : TablePrefix := ⟨some "db->"⟩
    (Field.column (.name "t.c")).text p = .ok "db->t.c".toList ∧
      (Field.column (.name "db->t.c")).text p = .ok "JSON_UNQUOTE(JSON_EXTRACT(db, \"$.t.c\"))".toList :=
  ⟨rfl, rfl⟩

/-! ## Columns of a table -/

/-- A word of letters, digits and `_`. -/
structure IsName (t : Text) : Prop where
  ne_nil : t ≠ []
  chars : ∀ c ∈ t, c.isAlphanum || c == '_'

/-- A name begins with the prefix by itself. -/
def TablePrefix.Begins (p : TablePrefix) (name : Text) : Prop := ∃ pre ∈ p.text, pre <+: name

theorem IsName.isNameChar {t : Text} (h : IsName t) : ∀ c ∈ t, isNameChar c = true := by
  intro c hc
  rw [TablePrefix.isNameChar, h.chars c hc]
  rfl

theorem IsName.count_point {t : Text} (h : IsName t) : t.count '.' = 0 :=
  List.count_eq_zero.mpr fun hm => absurd (h.chars '.' hm) (by decide)

theorem isQualified_of_isName {t c : Text} (ht : IsName t) (hc : IsName c) :
    isQualified (t ++ "." ++ c) = true := by
  have hcount : (t ++ ['.'] ++ c).count '.' = 1 := by
    rw [List.count_append, List.count_append, ht.count_point, hc.count_point]
    rfl
  have hall : (t ++ ['.'] ++ c).all isNameChar = true := by
    rw [List.all_append, List.all_append, List.all_eq_true.mpr ht.isNameChar,
      List.all_eq_true.mpr hc.isNameChar]
    rfl
  change isQualified (t ++ ['.'] ++ c) = true
  simp only [isQualified, hcount, hall]
  simp

theorem IsName.not_blank {t : Text} (h : IsName t) : Text.blank t = false := by
  obtain ⟨c, rest, rfl⟩ := List.exists_cons_of_ne_nil h.ne_nil
  have hc := isBlank_of_isWordChar (h.chars c List.mem_cons_self)
  simp [Text.blank, hc]

theorem isBlank_of_isNameChar {c : Char} (h : isNameChar c = true) : Text.isBlank c = false := by
  rw [isNameChar, Bool.or_eq_true, beq_iff_eq] at h
  rcases h with h | rfl
  · exact isBlank_of_isWordChar h
  · decide

theorem Selector.isPart_of_isQualified {t : Text} (h : isQualified t = true) : IsPart t where
  ne_nil := by
    rintro rfl
    cases h
  trimmed := Text.trim_eq_self (.of_forall fun c hc => isBlank_of_isNameChar (isNameChar_of_isQualified h c hc))
  arrowless := .of_isQualified h

/-- A column gets the name of its table exactly if it does not begin with the
prefix by itself. -/
theorem TablePrefix.field_eq_table_iff (hp : p.text ≠ some []) {t c : Text}
    (h : isQualified (t ++ "." ++ c) = true) :
    p.field (t ++ "." ++ c) = p.table t ++ "." ++ c ↔ ¬ p.Begins (t ++ "." ++ c) := by
  cases hpre : p.text with
  | none =>
    have hkept : p.field (t ++ "." ++ c) = t ++ "." ++ c := field_eq_self (by simp [hpre])
    have htable : p.table t = t := by simp [table, hpre]
    rw [hkept, htable]
    exact iff_of_true rfl (by simp [Begins, hpre])
  | some pre =>
    have htable : p.table t ++ "." ++ c = pre ++ (t ++ "." ++ c) := by
      simp only [table, hpre, Option.getD_some, List.append_assoc]
    have hbegins : p.Begins (t ++ "." ++ c) ↔ pre <+: t ++ "." ++ c := by
      simp [Begins, hpre]
    rw [hbegins, htable]
    by_cases hpt : pre <+: t ++ "." ++ c
    · rw [field_eq_self (by simpa [hpre] using fun _ => hpt)]
      refine iff_of_false (fun heq => ?_) (not_not_intro hpt)
      -- the prefix in front makes the name longer
      have hnil : pre = [] := List.self_eq_append_left.mp heq
      exact hp (hnil ▸ hpre)
    · exact iff_of_true (field_of_qualified hpre h hpt) hpt

theorem Field.text_column_eq_ok {c : Column} {r : Text} :
    (Field.column c).text p = .ok r ↔ c.text p = r := by
  rw [Field.text, Except.ok.injEq]

/-- **A column names its table as the query does, unless it begins with the
prefix.** A table gets the prefix, if there is one. A column of the table, by
itself or with nodes of a JSON value below it, is resolved to a column of the
prefixed table exactly if its own text does not begin with the prefix; if it
does, it is left as it is written. -/
theorem Column.named_as_table (hp : p.text ≠ some []) {t c : Text} (ht : IsName t) (hc : IsName c)
    {nodes : List Text} (hne : nodes ≠ []) (hnodes : ∀ node ∈ nodes, IsPart node) :
    let column := t ++ "." ++ c
    let value := Text.joined "->" (column :: nodes)
    ∃ table, TableRef.make (.column (.name t)) none = .ok table ∧
      ((Field.column (.name column)).text p = .ok (table.text p ++ "." ++ c) ↔ ¬ p.Begins column) ∧
      ((Field.column (.name value)).text p = .ok (jsonValue (table.text p ++ "." ++ c) nodes) ↔
        ¬ p.Begins column) ∧
      ∀ pre ∈ p.text, table.text p = pre ++ t ∧
        (pre <+: column → (Field.column (.name column)).text p = .ok column ∧
          (Field.column (.name value)).text p = .ok (jsonValue column nodes)) := by
  intro column value
  have hqualified : isQualified column = true := isQualified_of_isName ht hc
  have hpart : IsPart column := Selector.isPart_of_isQualified hqualified
  have hcolumn : (Column.name column).text p = p.field column :=
    Column.text_of_unreadable (Selector.readable_of_arrowless hpart.arrowless)
  have hproper : Selector.Proper ⟨column, nodes⟩ := ⟨hpart, hnodes, hne⟩
  have hread : parse value = .ok ⟨column, nodes⟩ := Selector.parse_text hproper
  have hvalue : (Column.name value).text p = jsonValue (p.field column) nodes := by
    rw [Column.text_of_parse hread]
  have hblank : Text.blank t = false := ht.not_blank
  have hmade : TableRef.make (.column (.name t)) none = .ok ⟨.named t, none⟩ := by
    simp only [TableRef.make, hblank, Bool.false_eq_true, if_false]
  have hagree : p.field column = p.table t ++ "." ++ c ↔ ¬ p.Begins column :=
    TablePrefix.field_eq_table_iff hp hqualified
  refine ⟨⟨.named t, none⟩, hmade, ?_, ?_, fun pre hpre => ⟨?_, fun hbegins => ?_⟩⟩
  · rw [Field.text_column_eq_ok, hcolumn]
    exact hagree
  · rw [Field.text_column_eq_ok, hvalue, jsonValue_inj]
    exact hagree
  · change p.text.getD [] ++ t = pre ++ t
    rw [Option.mem_def.mp hpre, Option.getD_some]
  · have hkept : p.field column = column := by
      refine TablePrefix.field_eq_self fun _ pre' hpre' => ?_
      obtain rfl := Option.some.inj (hpre.symm.trans hpre')
      exact hbegins
    rw [Field.text_column_eq_ok, Field.text_column_eq_ok, hcolumn, hvalue, hkept]
    exact ⟨rfl, rfl⟩

/-- A table of posts under two prefixes, of which the second begins the table's
own name. -/
theorem Column.named_as_table_sample :
    let wp : TablePrefix := ⟨some "wp_"⟩
    let po : TablePrefix := ⟨some "po"⟩
    let posts : TableRef := ⟨.named "posts", none⟩
    ((Field.column (.name "posts.meta")).text wp = .ok (posts.text wp ++ "." ++ "meta") ∧
      (Field.column (.name "posts.meta->seo")).text wp =
        .ok (jsonValue (posts.text wp ++ "." ++ "meta") ["seo"])) ∧
    posts.text po = "poposts".toList ∧
    (Field.column (.name "posts.meta->seo")).text po = .ok (jsonValue "posts.meta" ["seo"]) := by
  intro wp po posts
  have hposts : IsName "posts" := ⟨by decide, List.all_eq_true.mp (by decide)⟩
  have hmeta : IsName "meta" := ⟨by decide, List.all_eq_true.mp (by decide)⟩
  have hseo : ∀ node ∈ ["seo".toList], IsPart node := by
    intro node hn
    obtain rfl := List.mem_singleton.mp hn
    exact ⟨by decide, by decide, by decide⟩
  have hcolumn : "posts.meta".toList = "posts".toList ++ ".".toList ++ "meta".toList := rfl
  have hvalue : "posts.meta->seo".toList =
      Text.joined "->" [("posts".toList ++ ".".toList ++ "meta".toList), "seo".toList] := rfl
  obtain ⟨table, hmade, hfield, hjson, -⟩ :=
    Column.named_as_table (p := wp) (by decide) hposts hmeta (by decide) hseo
  obtain ⟨table', hmade', -, -, hblind⟩ :=
    Column.named_as_table (p := po) (by decide) hposts hmeta (by decide) hseo
  obtain rfl : posts = table := Except.ok.inj hmade
  obtain rfl : posts = table' := Except.ok.inj hmade'
  have hfree : ¬ wp.Begins ("posts".toList ++ ".".toList ++ "meta".toList) := by
    rintro ⟨pre, hpre, hbegins⟩
    obtain rfl := Option.some.inj hpre
    exact absurd hbegins (by decide)
  obtain ⟨htable, hkept⟩ := hblind "po".toList rfl
  rw [hvalue, hcolumn]
  exact ⟨⟨hfield.mpr hfree, hjson.mpr hfree⟩, htable, (hkept (by decide)).2⟩

end BoundSql
