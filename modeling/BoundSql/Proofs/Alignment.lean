/-
Placeholders line up with bindings, and binding a value is no other than
writing its literal.

As long as a percent sign stands in raw SQL only and raw SQL is filled, the
placeholders of a query are those of its bindings, in order, and values put in
as literals before compiling give the SQL that values bound and put in at the
end give. Both are read off the two runs of `Proofs.Splicing`.
-/
import BoundSql.Proofs.Splicing

namespace BoundSql

namespace Statements

variable {p : TablePrefix} {st : Statements}

theorem aligned_of_alike {x y : Except Error Query} (h : Alike (Query.Related Spliced) x y) {q : Query}
    (hq : x = .ok q) : q.text.Aligned := by
  obtain ⟨r, -, hr⟩ := h.of_ok hq
  exact hr.text.aligned

/-- **Placeholders line up with bindings.** Under the rules of `Tidy`, whatever
statements compile to has the placeholders of its bindings in its text, in
the same order and as many, and binds no NULL. -/
theorem aligned_of_compiled (hp : p.Tidy) (h : st.Tidy) :
    (∀ q, st.select p = .ok q → q.text.Aligned) ∧
    (∀ fn field q, Field.Tidy field → st.aggregate p fn field = .ok q → q.text.Aligned) ∧
    (∀ row mode q, Row.Tidy row → st.insertRow p row mode = .ok q → q.text.Aligned) ∧
    (∀ row q, Row.Tidy row → st.update p row = .ok q → q.text.Aligned) ∧
    (∀ q, st.delete p = .ok q → q.text.Aligned) :=
  ⟨fun _ => aligned_of_alike (select_spliced hp h),
    fun fn _ _ hf => aligned_of_alike (aggregate_spliced hp h fn hf),
    fun _ mode _ hrow => aligned_of_alike (insertRow_spliced hp h hrow mode),
    fun _ _ hrow => aligned_of_alike (update_spliced hp h hrow),
    fun _ => aligned_of_alike (delete_spliced hp h)⟩

theorem aligned_of_compiled_sample :
    TablePrefix.Tidy ⟨some "app_"⟩ ∧ sample.Tidy ∧ Row.Tidy Row.sample ∧
    (∃ q, sample.select ⟨some "app_"⟩ = .ok q ∧ q.text.Aligned) ∧
    (∃ q, sample.aggregate ⟨some "app_"⟩ .max (.column (.raw ⟨"u.age %% %d", [⟨.int 7, .int⟩]⟩)) =
      .ok q ∧ q.text.Aligned) ∧
    (∃ q, sample.insertRow ⟨some "app_"⟩ Row.sample .insertIgnore = .ok q ∧ q.text.Aligned) ∧
    (∃ q, sample.update ⟨some "app_"⟩ Row.sample = .ok q ∧ q.text.Aligned) ∧
    (∃ q, sample.delete ⟨some "app_"⟩ = .ok q ∧ q.text.Aligned) := by
  have hp : TablePrefix.Tidy ⟨some "app_"⟩ := by decide
  have hfield : Field.Tidy (.column (.raw ⟨"u.age %% %d", [⟨.int 7, .int⟩]⟩)) := by decide
  obtain ⟨hselect, haggregate, hinsert, hupdate, hdelete⟩ := aligned_of_compiled hp sample_tidy
  exact ⟨hp, sample_tidy, Row.sample_tidy, ⟨_, rfl, hselect _ rfl⟩,
    ⟨_, rfl, haggregate .max _ _ hfield rfl⟩, ⟨_, rfl, hinsert Row.sample _ _ Row.sample_tidy rfl⟩,
    ⟨_, rfl, hupdate Row.sample _ Row.sample_tidy rfl⟩, ⟨_, rfl, hdelete _ rfl⟩⟩

end Statements

/-- Two queries of one kind, the second one without bindings, that a database
receives as the same SQL. -/
structure Query.SentAlike (q r : Query) : Prop where
  bindings : r.bindings = []
  rendered : r.rendered = q.rendered
  kind : r.kind = q.kind

theorem Query.Related.sentAlike {q r : Query} (h : Query.Related Spliced q r) : q.SentAlike r where
  bindings := by rw [Query.bindings, h.text.eq, Fragment.bindings_ofText]
  rendered := h.text.rendered_eq
  kind := h.kind.symm

namespace Statements

variable {p : TablePrefix} {st : Statements}

/-- **Binding a value is writing its literal.** Under the rules of `Tidy`,
statements compile if and only if they do with all their values spliced (and
fail with the same error), and the query with the values spliced binds nothing
and is the same SQL once every binding is in its place. -/
theorem sent_alike_spliced (hp : p.Tidy) (h : st.Tidy) :
    Alike Query.SentAlike (st.select p) (st.spliced.select p) ∧
    (∀ fn field, Field.Tidy field →
      Alike Query.SentAlike (st.aggregate p fn field) (st.spliced.aggregate p fn field)) ∧
    (∀ row mode, Row.Tidy row → Alike Query.SentAlike (st.insertRow p row mode)
      (st.spliced.insertRow p (Row.spliced row) mode)) ∧
    (∀ row, Row.Tidy row →
      Alike Query.SentAlike (st.update p row) (st.spliced.update p (Row.spliced row))) ∧
    Alike Query.SentAlike (st.delete p) (st.spliced.delete p) :=
  ⟨(select_spliced hp h).mono fun _ _ _ => Query.Related.sentAlike,
    fun fn _ hf => (aggregate_spliced hp h fn hf).mono fun _ _ _ => Query.Related.sentAlike,
    fun _ mode hrow => (insertRow_spliced hp h hrow mode).mono fun _ _ _ => Query.Related.sentAlike,
    fun _ hrow => (update_spliced hp h hrow).mono fun _ _ _ => Query.Related.sentAlike,
    (delete_spliced hp h).mono fun _ _ _ => Query.Related.sentAlike⟩

theorem sent_alike_spliced_sample :
    TablePrefix.Tidy ⟨some "app_"⟩ ∧ sample.Tidy ∧ Row.Tidy Row.sample ∧
    (∃ q r, sample.select ⟨some "app_"⟩ = .ok q ∧ sample.spliced.select ⟨some "app_"⟩ = .ok r ∧
      r.bindings = [] ∧ r.rendered = q.rendered) ∧
    (∃ q r, sample.aggregate ⟨some "app_"⟩ .sum (.column (.name "u.age")) = .ok q ∧
      sample.spliced.aggregate ⟨some "app_"⟩ .sum (.column (.name "u.age")) = .ok r ∧
      r.bindings = [] ∧ r.rendered = q.rendered) ∧
    (∃ q r, sample.insertRow ⟨some "app_"⟩ Row.sample .insert = .ok q ∧
      sample.spliced.insertRow ⟨some "app_"⟩ (Row.spliced Row.sample) .insert = .ok r ∧
      r.bindings = [] ∧ r.rendered = q.rendered) ∧
    (∃ q r, sample.update ⟨some "app_"⟩ Row.sample = .ok q ∧
      sample.spliced.update ⟨some "app_"⟩ (Row.spliced Row.sample) = .ok r ∧
      r.bindings = [] ∧ r.rendered = q.rendered) := by
  have hp : TablePrefix.Tidy ⟨some "app_"⟩ := by decide
  have hfield : Field.Tidy (.column (.name "u.age")) := by decide
  have hsample := sent_alike_spliced hp sample_tidy
  refine ⟨hp, sample_tidy, Row.sample_tidy, ?_, ?_, ?_, ?_⟩
  · obtain ⟨q, hq⟩ : ∃ q, sample.select ⟨some "app_"⟩ = .ok q := ⟨_, rfl⟩
    obtain ⟨r, hr, hs⟩ := hsample.1.of_ok hq
    exact ⟨q, r, hq, hr, hs.bindings, hs.rendered⟩
  · obtain ⟨q, hq⟩ : ∃ q, sample.aggregate ⟨some "app_"⟩ .sum (.column (.name "u.age")) = .ok q :=
      ⟨_, rfl⟩
    obtain ⟨r, hr, hs⟩ := (hsample.2.1 .sum _ hfield).of_ok hq
    exact ⟨q, r, hq, hr, hs.bindings, hs.rendered⟩
  · obtain ⟨q, hq⟩ : ∃ q, sample.insertRow ⟨some "app_"⟩ Row.sample .insert = .ok q := ⟨_, rfl⟩
    obtain ⟨r, hr, hs⟩ := (hsample.2.2.1 _ .insert Row.sample_tidy).of_ok hq
    exact ⟨q, r, hq, hr, hs.bindings, hs.rendered⟩
  · obtain ⟨q, hq⟩ : ∃ q, sample.update ⟨some "app_"⟩ Row.sample = .ok q := ⟨_, rfl⟩
    obtain ⟨r, hr, hs⟩ := (hsample.2.2.2.1 _ Row.sample_tidy).of_ok hq
    exact ⟨q, r, hq, hr, hs.bindings, hs.rendered⟩

end Statements

end BoundSql
