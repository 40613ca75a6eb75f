/-
Pages of rows.

Asking for a page sets the limit and the offset together, or neither of them if
the offset does not fit in a word. A page shows the rows from its offset on, as
many as its limit says. So the pages of one size lie side by side: a row is on
the page that division by the size gives, and on no other. That page can always
be asked for, since it starts no later than the row itself.
-/
import BoundSql.Proofs.Paging

namespace BoundSql

/-! ## Asking for a page -/

namespace Builder

/-- A page that starts within a word sets the limit and the offset, and nothing
else. -/
theorem apply_paginate_of_fits {page size : UInt64} (b : Builder) (h : pageStart page size < 2 ^ 64) :
    b.apply (.paginate page size) = { b with statements := { b.statements with
      limit := some (max size 1), offset := some (.ofNat (pageStart page size)) } } := by
  have hpage := Statement.pageOf_eq page size
  rw [if_pos h] at hpage
  rw [apply, Call.statements, hpage]
  rfl

/-- A page that starts past that is refused, and the statements stay as they
are. -/
theorem apply_paginate_of_far {page size : UInt64} (b : Builder) (h : 2 ^ 64 ≤ pageStart page size) :
    b.apply (.paginate page size) =
      { b with error := b.error.or (some (.statement (.pageTooFar (max page 1) (max size 1)))) } := by
  have hpage := Statement.pageOf_eq page size
  rw [if_neg (Nat.not_lt.mpr h)] at hpage
  rw [apply_eq, Call.statements, hpage]
  rfl

end Builder

theorem Call.refusals_paginate {page size : UInt64} :
    refusals (paginate page size).statements = [] ↔ pageStart page size < 2 ^ 64 := by
  rw [statements, Statement.pageOf_eq]
  split
  next h => exact iff_of_true rfl h
  next h => exact iff_of_false (by simp) h

/-! ## Rows on a page -/

/-- Row `i`, counted from zero, is among those the offset and the limit leave. -/
def Statements.Shows (st : Statements) (i : Nat) : Prop :=
  ∃ limit ∈ st.limit, ∃ offset ∈ st.offset, offset.toNat ≤ i ∧ i < offset.toNat + limit.toNat

/-- Division by the size of the pages finds the page of a row. -/
theorem on_page_iff {k i size : Nat} (hsize : 0 < size) :
    k * size ≤ i ∧ i < k * size + size ↔ k = i / size := by
  have hdiv := Nat.div_add_mod i size
  have hmod := Nat.mod_lt i hsize
  constructor
  · rintro ⟨hfrom, hto⟩
    have hle : k ≤ i / size := (Nat.le_div_iff_mul_le hsize).mpr hfrom
    have hlt : i / size < k + 1 := (Nat.div_lt_iff_lt_mul hsize).mpr (by rw [Nat.succ_mul]; exact hto)
    omega
  · rintro rfl
    rw [Nat.mul_comm]
    omega

namespace Builder

/-- A page that is not refused shows the rows whose number divided by its size is
the number of pages before it. -/
theorem shows_paginate_iff {page size : UInt64} (b : Builder) {i : Nat}
    (h : refusals (Call.paginate page size).statements = []) :
    (b.apply (.paginate page size)).statements.Shows i ↔
      (max page 1).toNat - 1 = i / (max size 1).toNat := by
  have hfits := Call.refusals_paginate.mp h
  have hsize : 0 < (max size 1).toNat := by
    rw [UInt64.toNat_max]
    exact Nat.lt_of_lt_of_le Nat.zero_lt_one (Nat.le_max_right _ _)
  have hoffset : (UInt64.ofNat (pageStart page size)).toNat = pageStart page size :=
    UInt64.toNat_ofNat_of_lt' hfits
  rw [apply_paginate_of_fits b hfits, ← on_page_iff hsize]
  simp only [Statements.Shows, Option.mem_some_iff, exists_eq_left', hoffset]
  rfl

/-- Each row but the last of `2 ^ 64` is on one page, the one behind as many pages
as its number is divided by the size. -/
theorem existsUnique_page (b : Builder) (size : UInt64) {i : Nat} (hi : i < 2 ^ 64 - 1) :
    ∃! n : UInt64, 1 ≤ n ∧ refusals (Call.paginate n size).statements = [] ∧
      (b.apply (.paginate n size)).statements.Shows i := by
  have hstart : i / (max size 1).toNat * (max size 1).toNat ≤ i := Nat.div_mul_le_self _ _
  have hle : i / (max size 1).toNat ≤ i := Nat.div_le_self _ _
  obtain ⟨before, hbefore⟩ : ∃ k, i / (max size 1).toNat = k := ⟨_, rfl⟩
  rw [hbefore] at hstart hle
  -- the page's number is a word, since the row is not the last one
  have hword : before + 1 < 2 ^ 64 := by omega
  have hn : (UInt64.ofNat (before + 1)).toNat = before + 1 := UInt64.toNat_ofNat_of_lt' hword
  have hclamped : ∀ n : UInt64, 1 ≤ n → (max n 1).toNat = n.toNat := by
    intro n hone
    rw [UInt64.toNat_max]
    exact Nat.max_eq_left (UInt64.le_iff_toNat_le.mp hone)
  have hone : 1 ≤ UInt64.ofNat (before + 1) := by
    rw [UInt64.le_iff_toNat_le, hn]
    exact Nat.le_add_left 1 before
  have hfits : refusals (Call.paginate (.ofNat (before + 1)) size).statements = [] := by
    rw [Call.refusals_paginate, pageStart, hclamped _ hone, hn, Nat.add_sub_cancel]
    omega
  refine ⟨.ofNat (before + 1), ⟨hone, hfits, ?_⟩, ?_⟩
  · rw [shows_paginate_iff b hfits, hclamped _ hone, hn, Nat.add_sub_cancel, hbefore]
  · rintro n ⟨hn1, hnfits, hshows⟩
    rw [shows_paginate_iff b hnfits, hclamped n hn1, hbefore] at hshows
    have hpos : 1 ≤ n.toNat := UInt64.le_iff_toNat_le.mp hn1
    apply UInt64.toNat_inj.mp
    rw [hn]
    omega

/-- **The pages of one size tile the rows.** Asking for a page sets the limit to
its size and the offset to the rows of the pages before it, page and size both
counted as one at least, if that number fits in a word. Otherwise it is refused,
which is kept as an error unless there is one already, and leaves limit and
offset as they were. Whatever the size, each row but the last of `2 ^ 64` is on
exactly one page that is not refused. -/
theorem pages_tile (b : Builder) (page size : UInt64) :
    let p := max page 1
    let s := max size 1
    let start := (p.toNat - 1) * s.toNat
    (start < 2 ^ 64 → ∃ offset : UInt64, offset.toNat = start ∧
      b.apply (.paginate page size) =
        { b with statements := { b.statements with limit := some s, offset := some offset } }) ∧
    (2 ^ 64 ≤ start → b.apply (.paginate page size) =
      { b with error := b.error.or (some (.statement (.pageTooFar p s))) }) ∧
    ∀ i < 2 ^ 64 - 1, ∃! n : UInt64, 1 ≤ n ∧ refusals (Call.paginate n size).statements = [] ∧
      (b.apply (.paginate n size)).statements.Shows i := by
  intro p s start
  refine ⟨fun h => ?_, apply_paginate_of_far b, fun i hi => existsUnique_page b size hi⟩
  exact ⟨.ofNat start, UInt64.toNat_ofNat_of_lt' h, apply_paginate_of_fits b h⟩

/-- The last page of single rows, the page of pairs with the same number, which
is too far, and the page of the last row that has one. -/
theorem pages_tile_sample :
    let b : Builder := { statements := { limit := some 7 } }
    let last : UInt64 := 18446744073709551615
    (∃ offset : UInt64, offset.toNat = 18446744073709551614 ∧ b.apply (.paginate last 0) =
      { b with statements := { b.statements with limit := some 1, offset := some offset } }) ∧
    b.apply (.paginate last 2) = { b with error := some (.statement (.pageTooFar last 2)) } ∧
    ∃! n : UInt64, 1 ≤ n ∧ refusals (Call.paginate n 0).statements = [] ∧
      (b.apply (.paginate n 0)).statements.Shows 18446744073709551614 := by
  intro b last
  have hstart : ((max last 1).toNat - 1) * (max 0 1 : UInt64).toNat = 18446744073709551614 := by decide
  have hfar : ((max last 1).toNat - 1) * (max 2 1 : UInt64).toNat = 36893488147419103228 := by decide
  obtain ⟨hset, -, hrows⟩ := pages_tile b last 0
  obtain ⟨-, hrefused, -⟩ := pages_tile b last 2
  rw [hstart] at hset
  rw [hfar] at hrefused
  exact ⟨hset (by decide), hrefused (by decide), hrows _ (by decide)⟩

end Builder

end BoundSql
