import CatalogQuery.Proofs.Evaluation

/-!
# Sorted pages of a search

A search sorts the revisions its filter matches and cuts the sorted list into pages.

The sort is stable: `SortedStablyBy key l sorted` says that `sorted` lists the elements of `l`
in increasing key order, elements of one key in their order in `l`, and that fixes `sorted`
(`SortedStablyBy.unique`). The object-key orders sort by bucket id, name and revision id
(`Revision.objectKey`), the kind orders by the kind of the revision's object first
(`Catalog.kindKey`), each ascending or descending (`Catalog.SortedBy`). When revision ids are
distinct every key is too, and a descending order lists the ascending one reversed.

Page `q` of size `s` holds the rows at positions `q * s` up to `q * s + s` of the sorted list,
counts them all, and has the least page count that covers them (`Page.Cuts`); a requested size
of 0 counts as 1. Page numbers and sizes are words and the search saturates its products and
sums, but on a list that a word counts the saturated arithmetic gives what the unbounded one
does, for every page number and size (`Catalog.findAll_cuts`). The pages before the page count
concatenate to the sorted list and every later page is empty
(`Catalog.findAll_pages_partition`).
-/

namespace CatalogQuery

/-! ### Stable sorting by a key -/

section StableSort

variable {α β : Type} [LinearOrder β]

/-- `sorted` lists the elements of `l` in increasing key order, and elements of one key in
their order in `l`. -/
structure SortedStablyBy (key : α → β) (l sorted : List α) : Prop where
  perm : sorted.Perm l
  ordered : sorted.Pairwise fun a b => key a ≤ key b
  stable : ∀ k, sorted.filter (fun a => key a = k) = l.filter (fun a => key a = k)

variable {key : α → β}

/-- Two stable sorts of one list start with the same element: both heads have the least key,
and among the elements of that key both keep the first of `l`. -/
theorem SortedStablyBy.head_eq {l s t : List α} {a b : α} (hs : SortedStablyBy key l (a :: s))
    (ht : SortedStablyBy key l (b :: t)) : a = b := by
  have hle : ∀ {x y : α} {u v : List α}, SortedStablyBy key l (x :: u) →
      SortedStablyBy key l (y :: v) → key x ≤ key y := by
    intro x y u v hu hv
    have hy : y ∈ x :: u := hu.perm.mem_iff.2 (hv.perm.mem_iff.1 List.mem_cons_self)
    rcases List.mem_cons.1 hy with rfl | hy
    · exact le_rfl
    · exact List.rel_of_pairwise_cons hu.ordered hy
  have hkey : key a = key b := le_antisymm (hle hs ht) (hle ht hs)
  have hfilter := (hs.stable (key a)).trans (ht.stable (key a)).symm
  rw [List.filter_cons_of_pos (by simp), List.filter_cons_of_pos (by simp [hkey])] at hfilter
  exact (List.cons_eq_cons.1 hfilter).1

/-- Taking the first element off a stable sort of `l` leaves a stable sort of the rest of `l`. -/
theorem SortedStablyBy.tail [DecidableEq α] {l s : List α} {a : α}
    (h : SortedStablyBy key l (a :: s)) : SortedStablyBy key (l.erase a) s where
  perm := by
    have hperm := h.perm.erase a
    rwa [List.erase_cons_head] at hperm
  ordered := h.ordered.of_cons
  stable k := by
    rw [← List.erase_filter, ← h.stable k]
    by_cases hk : key a = k
    · rw [List.filter_cons_of_pos (by simpa using hk), List.erase_cons_head]
    · rw [List.filter_cons_of_neg (by simpa using hk), List.erase_of_not_mem (by simp [hk])]

/-- A list has one stable sort. -/
theorem SortedStablyBy.unique [DecidableEq α] {l s t : List α} (hs : SortedStablyBy key l s)
    (ht : SortedStablyBy key l t) : s = t := by
  induction s generalizing l t with
  | nil => exact (ht.perm.trans hs.perm.symm).eq_nil.symm
  | cons a s ih =>
    cases t with
    | nil => exact absurd (hs.perm.trans ht.perm.symm).eq_nil (List.cons_ne_nil _ _)
    | cons b t =>
      obtain rfl := hs.head_eq ht
      rw [ih hs.tail ht.tail]

/-- Merge sort by a test that compares keys is a stable sort by those keys. -/
theorem sortedStablyBy_mergeSort {le : α → α → Bool} (hle : ∀ a b, le a b = true ↔ key a ≤ key b)
    (l : List α) : SortedStablyBy key l (l.mergeSort le) := by
  have htrans : ∀ a b c, le a b = true → le b c = true → le a c = true := fun a b c hab hbc =>
    (hle a c).2 (le_trans ((hle a b).1 hab) ((hle b c).1 hbc))
  have htotal : ∀ a b, (le a b || le b a) = true := by
    intro a b
    rcases le_total (key a) (key b) with h | h
    · simp [(hle a b).2 h]
    · simp [(hle b a).2 h]
  refine ⟨List.mergeSort_perm l le,
    (List.pairwise_mergeSort htrans htotal l).imp fun h => (hle _ _).1 h, fun k => ?_⟩
  -- the elements of one key are in order among themselves, so the sort keeps that order
  have hone : (l.filter fun a => key a = k).Pairwise fun a b => le a b = true := by
    refine List.pairwise_of_forall_mem_list fun a ha b hb => (hle a b).2 ?_
    rw [(by simpa using (List.mem_filter.1 ha).2 : key a = k),
      (by simpa using (List.mem_filter.1 hb).2 : key b = k)]
  have hsub := (List.sublist_mergeSort htrans htotal hone List.filter_sublist).filter
    (fun a => decide (key a = k))
  simp only [List.filter_filter, Bool.and_self] at hsub
  exact (hsub.eq_of_length
    (((List.mergeSort_perm l le).filter (fun a => decide (key a = k))).length_eq).symm).symm

/-- A stable sort of a list whose elements have distinct keys, read backwards, is its stable
sort by the reversed keys. -/
theorem SortedStablyBy.reverse_eq [DecidableEq α] {l s d : List α} (hs : SortedStablyBy key l s)
    (hd : SortedStablyBy (fun a => OrderDual.toDual (key a)) l d)
    (hkey : ∀ a ∈ l, ∀ b ∈ l, key a = key b → a = b) : d = s.reverse := by
  refine @List.Perm.eq_of_pairwise _ (fun a b => key b ≤ key a) _ _ (fun a b ha hb hab hba => ?_)
    (hd.ordered.imp OrderDual.toDual_le_toDual.1) (List.pairwise_reverse.2 hs.ordered)
    (hd.perm.trans (hs.perm.symm.trans (List.reverse_perm s).symm))
  exact hkey a (hd.perm.mem_iff.1 ha) b (hs.perm.mem_iff.1 (List.mem_reverse.1 hb))
      (le_antisymm hba hab)

end StableSort

/-! ### The orders of a search -/

/-- The key of the object-key orders: bucket id, name and revision id, compared in this order,
the ids as integers. -/
def Revision.objectKey (r : Revision) : Lex (Int × Lex (String × Int)) :=
  toLex (r.bucketId.toInt, toLex (r.name, r.id.toInt))

theorem Revision.id_eq_of_objectKey_eq {a b : Revision} (h : a.objectKey = b.objectKey) :
    a.id = b.id := by
  simp only [Revision.objectKey, toLex_inj, Prod.mk.injEq] at h
  exact Int64.toInt_inj.1 h.2.2

theorem keyOrder_eq_gt_iff (a b : Revision) : keyOrder a b = .gt ↔ b.objectKey < a.objectKey := by
  simp only [keyOrder, Ordering.then_eq_gt, compare_gt_iff_gt, compare_eq_iff_eq,
    Revision.objectKey, Prod.Lex.toLex_lt_toLex]
  -- the two sides differ only in the direction of their equations
  exact or_congr_right (and_congr eq_comm (or_congr_right (and_congr eq_comm Iff.rfl)))

theorem keyOrder_ne_gt_iff (a b : Revision) :
    (keyOrder a b != .gt) = true ↔ a.objectKey ≤ b.objectKey := by
  rw [bne_iff_ne, ne_eq, keyOrder_eq_gt_iff, not_lt]

namespace Catalog

variable (c : Catalog)

/-- The key of the kind orders: the kind of the revision's object, or the empty text if it has
none, then the object key. -/
def kindKey (r : Revision) : Lex (String × Lex (Int × Lex (String × Int))) :=
  toLex (c.kindOf r, r.objectKey)

theorem kindOrder_eq_gt_iff (a b : Revision) :
    (Ord.compare (c.kindOf a) (c.kindOf b)).then (keyOrder a b) = .gt ↔
      c.kindKey b < c.kindKey a := by
  rw [Ordering.then_eq_gt, compare_gt_iff_gt, compare_eq_iff_eq, keyOrder_eq_gt_iff, kindKey,
    kindKey, Prod.Lex.toLex_lt_toLex]
  exact or_congr_right (and_congr eq_comm Iff.rfl)

theorem kindOrder_ne_gt_iff (a b : Revision) :
    ((Ord.compare (c.kindOf a) (c.kindOf b)).then (keyOrder a b) != .gt) = true ↔
      c.kindKey a ≤ c.kindKey b := by
  rw [bne_iff_ne, ne_eq, kindOrder_eq_gt_iff, not_lt]

/-- The order a search sorts by: the object key or the kind key, ascending or descending,
stably. -/
def SortedBy : OrderBy → List Revision → List Revision → Prop
  | .keyAsc => SortedStablyBy Revision.objectKey
  | .keyDesc => SortedStablyBy fun r => OrderDual.toDual r.objectKey
  | .kindAsc => SortedStablyBy c.kindKey
  | .kindDesc => SortedStablyBy fun r => OrderDual.toDual (c.kindKey r)

/-- A search sorts the revisions stably by its order's key. -/
theorem sortRevisions_sortedBy (order : OrderBy) (rows : List Revision) :
    c.SortedBy order rows (c.sortRevisions order rows) := by
  cases order
  case keyAsc => exact sortedStablyBy_mergeSort keyOrder_ne_gt_iff rows
  case keyDesc =>
    exact sortedStablyBy_mergeSort (fun a b =>
      (keyOrder_ne_gt_iff b a).trans OrderDual.toDual_le_toDual.symm) rows
  case kindAsc => exact sortedStablyBy_mergeSort (c.kindOrder_ne_gt_iff) rows
  case kindDesc =>
    exact sortedStablyBy_mergeSort (fun a b =>
      (c.kindOrder_ne_gt_iff b a).trans OrderDual.toDual_le_toDual.symm) rows

/-- When revision ids are distinct, each descending order lists its ascending order reversed. -/
theorem sortRevisions_desc_eq_reverse {rows : List Revision} (hids : (rows.map (·.id)).Nodup) :
    c.sortRevisions .keyDesc rows = (c.sortRevisions .keyAsc rows).reverse ∧
      c.sortRevisions .kindDesc rows = (c.sortRevisions .kindAsc rows).reverse := by
  -- the revision id is part of both keys, so distinct ids make distinct keys
  have hobj : ∀ a ∈ rows, ∀ b ∈ rows, a.objectKey = b.objectKey → a = b :=
    fun a ha b hb h => List.inj_on_of_nodup_map hids ha hb (Revision.id_eq_of_objectKey_eq h)
  have hkind : ∀ a ∈ rows, ∀ b ∈ rows, c.kindKey a = c.kindKey b → a = b := by
    intro a ha b hb h
    simp only [kindKey, toLex_inj, Prod.mk.injEq] at h
    exact hobj a ha b hb h.2
  exact ⟨(c.sortRevisions_sortedBy .keyAsc rows).reverse_eq
      (c.sortRevisions_sortedBy .keyDesc rows) hobj,
    (c.sortRevisions_sortedBy .kindAsc rows).reverse_eq
      (c.sortRevisions_sortedBy .kindDesc rows) hkind⟩

end Catalog

/-! ### Cutting pages -/

/-- A page is the `page`-th run of `size` rows of a sorted list, in unbounded arithmetic: it
holds the rows at positions `page * size` up to `page * size + size`, counts all rows of the list,
has the least page count that covers them, and says whether pages come after and before it. -/
structure Page.Cuts (p : Page) (sorted : List Revision) (page size : UInt64) : Prop where
  rows_eq : p.rows = (sorted.drop (page.toNat * size.toNat)).take size.toNat
  page_eq : p.page = page
  size_eq : p.size = size
  totalCount_eq : p.totalCount = sorted.length
  totalPages_le_iff : ∀ q : Nat, p.totalPages ≤ q ↔ sorted.length ≤ q * size.toNat
  hasNext_iff : p.hasNext = true ↔ page.toNat + 1 < p.totalPages
  hasPrevious_iff : p.hasPrevious = true ↔ 0 < page.toNat

/-- Rounding `n / s` up is the least `q` with `n ≤ q * s`. -/
theorem ceilDiv_le_iff {n s : Nat} (hs : 0 < s) (q : Nat) : (n + s - 1) / s ≤ q ↔ n ≤ q * s := by
  rw [Nat.div_le_iff_le_mul_add_pred hs, Nat.mul_comm q s]
  omega

/-- A page at or past the page count is empty. -/
theorem Page.Cuts.rows_eq_nil {p : Page} {sorted : List Revision} {page size : UInt64}
    (h : p.Cuts sorted page size) (hq : p.totalPages ≤ page.toNat) : p.rows = [] := by
  rw [h.rows_eq, List.drop_eq_nil_of_le ((h.totalPages_le_iff _).1 hq), List.take_nil]

/-- The pages before the page count, one after another, are the whole sorted list. -/
theorem Page.flatten_cuts {pageAt : UInt64 → Page} {sorted : List Revision} {size : UInt64}
    (h : ∀ q, (pageAt q).Cuts sorted q size) (hcount : (pageAt 0).totalPages < UInt64.size) :
    ((List.range (pageAt 0).totalPages).map fun q => (pageAt q.toUInt64).rows).flatten =
      sorted := by
  have hrows : ∀ q ∈ List.range (pageAt 0).totalPages,
      (pageAt q.toUInt64).rows = (sorted.drop (q * size.toNat)).take size.toNat := by
    intro q hq
    rw [(h q.toUInt64).rows_eq, Nat.toUInt64,
      UInt64.toNat_ofNat_of_lt' (Nat.lt_trans (List.mem_range.1 hq) hcount)]
  rw [List.map_congr_left hrows, Catalog.flatten_pages,
    List.take_of_length_le (((h 0).totalPages_le_iff _).1 le_rfl)]

namespace Catalog

variable (c : Catalog)

/-- The page a search returns for each request, when the filter matches: on a list of rows that
a word counts, the saturated first row and successor page agree with the unbounded ones. -/
theorem findAll_cuts {build : RegexBuild} {f : CompiledFilter} {rows : List Revision}
    {record : LogRecord} (h : c.matching build f = .ok (rows, record))
    (hfit : rows.length < UInt64.size) (req : PageRequest) :
    ∃ p, c.findAll build f req = .ok (p, record) ∧
      p.Cuts (c.sortRevisions req.order rows) req.page (max req.size 1) := by
  have hs := pageSize_pos req.size
  have hlen : (c.sortRevisions req.order rows).length < UInt64.size := by
    rwa [(c.sortRevisions_perm req.order rows).length_eq]
  have hpages := pages_le (c.sortRevisions req.order rows).length _ hs
  refine ⟨_, by unfold findAll; rw [h]; rfl, ⟨?_, rfl, rfl, rfl, ceilDiv_le_iff hs, ?_, ?_⟩⟩
  · exact congrArg (List.take _) (drop_saturatingMul _ hlen _ _)
  · dsimp only
    rw [decide_eq_true_iff, UInt64.toNat_saturatingAdd, UInt64.toNat_one]
    omega
  · rw [decide_eq_true_iff, gt_iff_lt, UInt64.lt_iff_toNat_lt, UInt64.toNat_zero]

/-- Paging a search, for every page number and page size a word holds: a search fails only when
matching does, with its error. Otherwise, when a word counts the matched revisions, every page is
a cut of them sorted stably by the order's key, in unbounded arithmetic, with a page size of 0
counting as 1; the pages before the page count concatenate to the whole sorted list, each row
once, and every later page is empty. When the matched revisions have distinct ids, each
descending order lists its ascending order reversed. -/
theorem findAll_pages_partition (build : RegexBuild) (f : CompiledFilter) (req : PageRequest) :
    (∀ err, c.matching build f = .error err → c.findAll build f req = .error err) ∧
    ∀ rows record, c.matching build f = .ok (rows, record) → rows.length < UInt64.size →
      ∃ pageAt : UInt64 → Page,
        c.SortedBy req.order rows (c.sortRevisions req.order rows) ∧
        (max req.size 1).toNat = max req.size.toNat 1 ∧
        (∀ q, c.findAll build f { req with page := q } = .ok (pageAt q, record) ∧
          (pageAt q).Cuts (c.sortRevisions req.order rows) q (max req.size 1)) ∧
        ((List.range (pageAt 0).totalPages).map fun q => (pageAt q.toUInt64).rows).flatten =
          c.sortRevisions req.order rows ∧
        (∀ q : UInt64, (pageAt 0).totalPages ≤ q.toNat → (pageAt q).rows = []) ∧
        ((rows.map (·.id)).Nodup →
          c.sortRevisions .keyDesc rows = (c.sortRevisions .keyAsc rows).reverse ∧
          c.sortRevisions .kindDesc rows = (c.sortRevisions .kindAsc rows).reverse) := by
  refine ⟨fun err h => by unfold findAll; rw [h]; rfl, fun rows record h hfit => ?_⟩
  choose pageAt hpage hcut using fun q : UInt64 => c.findAll_cuts h hfit { req with page := q }
  have hcut' : ∀ q, (pageAt q).Cuts (c.sortRevisions req.order rows) q (max req.size 1) := hcut
  have hs := pageSize_pos req.size
  have hcount : ∀ q, (pageAt q).totalPages = (pageAt 0).totalPages := fun q =>
    le_antisymm (((hcut' q).totalPages_le_iff _).2 (((hcut' 0).totalPages_le_iff _).1 le_rfl))
      (((hcut' 0).totalPages_le_iff _).2 (((hcut' q).totalPages_le_iff _).1 le_rfl))
  have hbound : (pageAt 0).totalPages < UInt64.size := by
    have hle : (pageAt 0).totalPages ≤ (c.sortRevisions req.order rows).length :=
      ((hcut' 0).totalPages_le_iff _).2 (Nat.le_mul_of_pos_right _ hs)
    rw [(c.sortRevisions_perm req.order rows).length_eq] at hle
    omega
  refine ⟨pageAt, c.sortRevisions_sortedBy req.order rows, UInt64.toNat_max_one _,
    fun q => ⟨hpage q, hcut' q⟩, Page.flatten_cuts hcut' hbound,
    fun q hq => (hcut' q).rows_eq_nil ((hcount q).trans_le hq),
    c.sortRevisions_desc_eq_reverse⟩

end Catalog

end CatalogQuery
