import CatalogQuery.Proofs.CommitHistory

/-!
# Fresh ids

A catalog hands out ids in two ways: creating a bucket takes the largest bucket id plus one, and
committing takes the last revision's id plus one. Buckets are kept in increasing id order, one
per id, so the largest is the last and a created bucket's id is fresh. Revisions keep the order
they were added in, and inserting a revision accepts any id, so a committed id is fresh only
while revision ids increase in insertion order (`Catalog.RevisionsAscend`).

`Catalog.Op` lists the calls of the catalog's interface. Every run of calls from the empty
catalog keeps bucket ids distinct and increasing. A call keeps revision ids in order when an
inserted revision's id exceeds every earlier one and a commit does not count up from the largest
64-bit id (`Catalog.Op.Ordered`); a run of such calls keeps revision ids distinct, and its next
commit gets a fresh id (`Catalog.freshIds_of_run`). Inserting revisions out of order breaks this: after revisions with ids 2 and 1, a commit hands
out 2 again (`Catalog.commit_reuses_id_after_unordered_inserts`).
-/

namespace CatalogQuery

theorem Int64.toInt_add_one {x : Int64} (h : x ≠ Int64.maxValue) : (x + 1).toInt = x.toInt + 1 := by
  have hle := Int64.toInt_le x
  have hne : x.toInt ≠ Int64.maxValue.toInt := fun heq => h (Int64.toInt_inj.1 heq)
  have hge := Int64.le_toInt x
  rw [Int64.toInt_maxValue] at hle hne
  rw [Int64.toInt_add, Int64.toInt_one, Int.bmod_eq_of_le] <;> omega

/-- In a list whose ids increase, the successor of the last id exceeds every id, unless the last
id is the largest 64-bit value. -/
theorem lt_last_add_one {α : Type} {idOf : α → Int64} {l : List α} {last : α}
    (h : l.Pairwise fun a b => (idOf a).toInt < (idOf b).toInt) (hl : l.getLast? = some last)
    (hmax : idOf last ≠ Int64.maxValue) {x : α} (hx : x ∈ l) :
    (idOf x).toInt < (idOf last + 1).toInt := by
  obtain ⟨init, rfl⟩ := List.getLast?_eq_some_iff.1 hl
  rw [Int64.toInt_add_one hmax]
  rcases List.mem_append.1 hx with hx | hx
  · have hlt := (List.pairwise_append.1 h).2.2 x hx last List.mem_cons_self
    omega
  · rw [List.mem_singleton.1 hx]
    omega

/-- Both generators take the last id plus one: in a list whose ids increase, that exceeds every
id, unless the last id is the largest 64-bit value. -/
theorem lt_next {α : Type} {idOf : α → Int64} {l : List α} {next : Int64}
    (h : l.Pairwise fun a b => (idOf a).toInt < (idOf b).toInt)
    (hmax : ∀ x ∈ l, idOf x ≠ Int64.maxValue)
    (hnext : ∀ last, l.getLast? = some last → next = idOf last + 1) :
    ∀ x ∈ l, (idOf x).toInt < next.toInt := by
  intro x hx
  cases hl : l.getLast? with
  | none => simp [List.getLast?_eq_none_iff.1 hl] at hx
  | some last =>
    rw [hnext last hl]
    exact lt_last_add_one h hl (hmax last (List.mem_of_getLast? hl)) hx

namespace Catalog

/-! ### Putting a bucket -/

theorem mem_putBucket {b x : Bucket} {bs : List Bucket} (h : x ∈ putBucket b bs) : x = b ∨ x ∈ bs := by
  induction bs with
  | nil => simpa [putBucket] using h
  | cons y rest ih =>
    unfold putBucket at h
    split at h
    · simpa using h
    · split at h
      · rcases List.mem_cons.1 h with h | h
        · exact .inl h
        · exact .inr (List.mem_cons_of_mem _ h)
      · rcases List.mem_cons.1 h with h | h
        · exact .inr (h ▸ List.mem_cons_self)
        · rcases ih h with h | h
          · exact .inl h
          · exact .inr (List.mem_cons_of_mem _ h)

/-- Putting a bucket keeps bucket ids increasing. -/
theorem putBucket_ascend {bs : List Bucket} (h : bs.Pairwise fun a b => a.id.toInt < b.id.toInt)
    (b : Bucket) : (putBucket b bs).Pairwise fun a b => a.id.toInt < b.id.toInt := by
  induction bs with
  | nil => simp [putBucket]
  | cons y rest ih =>
    obtain ⟨hy, hrest⟩ := List.pairwise_cons.1 h
    unfold putBucket
    split
    · -- before the first bucket
      next hlt =>
      rw [Int64.lt_iff_toInt_lt] at hlt
      refine List.pairwise_cons.2 ⟨fun x hx => ?_, h⟩
      rcases List.mem_cons.1 hx with rfl | hx
      · exact hlt
      · exact lt_trans hlt (hy x hx)
    · split
      · -- in place of the first bucket
        next _ heq =>
        have heq' : b.id = y.id := by simpa using heq
        refine List.pairwise_cons.2 ⟨fun x hx => ?_, hrest⟩
        rw [heq']
        exact hy x hx
      · -- after the first bucket
        next hlt hne =>
        have hgt : y.id.toInt < b.id.toInt := by
          have hle := Int64.not_lt.1 hlt
          rw [Int64.le_iff_toInt_le] at hle
          have hne' : y.id.toInt ≠ b.id.toInt := fun h => hne (by simp [Int64.toInt_inj.1 h])
          omega
        refine List.pairwise_cons.2 ⟨fun x hx => ?_, ih hrest⟩
        rcases mem_putBucket hx with rfl | hx
        · exact hgt
        · exact hy x hx

/-- Putting a bucket of a new id keeps every bucket. -/
theorem mem_putBucket_of_fresh {b : Bucket} {bs : List Bucket} (hb : b.id ∉ bs.map (·.id))
    {x : Bucket} (hx : x ∈ bs) : x ∈ putBucket b bs := by
  induction bs with
  | nil => cases hx
  | cons y rest ih =>
    unfold putBucket
    split
    · exact List.mem_cons_of_mem _ hx
    · split
      · next _ heq =>
        have heq' : b.id = y.id := by simpa using heq
        exact absurd (List.mem_map.2 ⟨y, List.mem_cons_self, heq'.symm⟩) hb
      · rcases List.mem_cons.1 hx with rfl | hx
        · exact List.mem_cons_self
        · exact List.mem_cons_of_mem _ (ih (fun h => hb (List.mem_cons_of_mem _ h)) hx)

/-! ### Ids in increasing order -/

/-- Bucket ids increase along the buckets. -/
def BucketsAscend (c : Catalog) : Prop := c.buckets.Pairwise fun a b => a.id.toInt < b.id.toInt

/-- Revision ids increase along the revisions, in the order they were added. -/
def RevisionsAscend (c : Catalog) : Prop :=
  c.revisions.Pairwise fun a b => a.id.toInt < b.id.toInt

theorem bucketsAscend_empty : empty.BucketsAscend := List.Pairwise.nil

theorem revisionsAscend_empty : empty.RevisionsAscend := List.Pairwise.nil

theorem nodup_ids_of_ascend {α : Type} {idOf : α → Int64} {l : List α}
    (h : l.Pairwise fun a b => (idOf a).toInt < (idOf b).toInt) : (l.map idOf).Nodup :=
  List.pairwise_map.2 (h.imp fun hlt heq => by rw [heq] at hlt; exact lt_irrefl _ hlt)

theorem not_mem_ids_of_lt {α : Type} {idOf : α → Int64} {l : List α} {id : Int64}
    (h : ∀ x ∈ l, (idOf x).toInt < id.toInt) : id ∉ l.map idOf := by
  intro hmem
  obtain ⟨x, hx, hid⟩ := List.mem_map.1 hmem
  have hlt := h x hx
  rw [hid] at hlt
  exact lt_irrefl _ hlt

/-- A created bucket's id exceeds every bucket id, unless some bucket has the largest id. -/
theorem lt_createBucket {c : Catalog} (h : c.BucketsAscend) (name owner : String)
    (hmax : ∀ b ∈ c.buckets, b.id ≠ Int64.maxValue) :
    ∀ b ∈ c.buckets, b.id.toInt < (c.createBucket name owner).1.toInt :=
  lt_next h hmax fun last hl => by simp [createBucket, hl]

/-- A committed revision's id exceeds every revision id, unless some revision has the largest
id. -/
theorem lt_commit {c : Catalog} (h : c.RevisionsAscend) (m : Commit)
    (hmax : ∀ r ∈ c.revisions, r.id ≠ Int64.maxValue) :
    ∀ r ∈ c.revisions, r.id.toInt < (c.commit m).1.toInt :=
  lt_next h hmax fun last hl => by simp [commit, hl]

/-! ### Runs of calls -/

/-- A call of the catalog's interface. -/
inductive Op where
  | createBucket (name owner : String)
  | insertBucket (b : Bucket)
  | insertObject (o : CatalogObject)
  | insertRevision (r : Revision)
  | commit (m : Commit)

namespace Op

/-- The catalog after a call. -/
def apply (c : Catalog) : Op → Catalog
  | .createBucket name owner => (c.createBucket name owner).2
  | .insertBucket b => c.insertBucket b
  | .insertObject o => c.insertObject o
  | .insertRevision r => c.insertRevision r
  | .commit m => (c.commit m).2.1

/-- The catalog after calls, made in order. -/
def run (c : Catalog) (ops : List Op) : Catalog := ops.foldl apply c

/-- A call keeps revision ids in order: an inserted revision's id exceeds every revision id
before it, and a commit does not count up from the largest 64-bit id. -/
def Ordered (c : Catalog) : Op → Prop
  | .insertRevision r => ∀ r' ∈ c.revisions, r'.id.toInt < r.id.toInt
  | .commit _ => ∀ r ∈ c.revisions, r.id ≠ Int64.maxValue
  | .createBucket .. | .insertBucket _ | .insertObject _ => True

/-- Every call of a run keeps revision ids in order, on the catalog the calls before it left. -/
def InOrder : Catalog → List Op → Prop
  | _, [] => True
  | c, op :: ops => op.Ordered c ∧ InOrder (op.apply c) ops

end Op

/-- Every call keeps bucket ids increasing: buckets are put in id order, one per id. -/
theorem BucketsAscend.apply {c : Catalog} (h : c.BucketsAscend) (op : Op) :
    (op.apply c).BucketsAscend := by
  cases op with
  | createBucket name owner => exact putBucket_ascend h _
  | insertBucket b => exact putBucket_ascend h b
  | insertObject o => exact h
  | insertRevision r => exact h
  | commit m => exact h

/-- A call that keeps revision ids in order keeps them increasing. -/
theorem RevisionsAscend.apply {c : Catalog} (h : c.RevisionsAscend) {op : Op}
    (hop : op.Ordered c) : (op.apply c).RevisionsAscend := by
  cases op with
  | createBucket name owner => exact h
  | insertBucket b => exact h
  | insertObject o => exact h
  | insertRevision r =>
    refine List.pairwise_append.2 ⟨h, List.pairwise_singleton _ _, fun a ha b hb => ?_⟩
    rw [List.mem_singleton.1 hb]
    exact hop a ha
  | commit m =>
    show (c.commit m).2.1.revisions.Pairwise _
    rw [commit_revisions]
    refine List.pairwise_append.2 ⟨h, List.pairwise_singleton _ _, fun a ha b hb => ?_⟩
    rw [List.mem_singleton.1 hb]
    exact lt_commit h m hop a ha

theorem BucketsAscend.run {c : Catalog} (h : c.BucketsAscend) (ops : List Op) :
    (Op.run c ops).BucketsAscend := by
  induction ops generalizing c with
  | nil => exact h
  | cons op ops ih => exact ih (h.apply op)

theorem RevisionsAscend.run {c : Catalog} (h : c.RevisionsAscend) {ops : List Op}
    (hops : Op.InOrder c ops) : (Op.run c ops).RevisionsAscend := by
  induction ops generalizing c with
  | nil => exact h
  | cons op ops ih => exact ih (h.apply hops.1) hops.2

/-! ### Fresh ids -/

/-- Bucket ids are distinct, and a created bucket gets a fresh id and replaces none, as long as
no bucket has the largest 64-bit id. -/
structure FreshBucketIds (c : Catalog) : Prop where
  nodup : (c.buckets.map (·.id)).Nodup
  createBucket : ∀ name owner, (∀ b ∈ c.buckets, b.id ≠ Int64.maxValue) →
    (c.createBucket name owner).1 ∉ c.buckets.map (·.id) ∧
      ∀ b ∈ c.buckets, b ∈ (c.createBucket name owner).2.buckets

/-- Revision ids are distinct, and a commit gets a fresh id as long as no revision has the
largest 64-bit id. -/
structure FreshRevisionIds (c : Catalog) : Prop where
  nodup : (c.revisions.map (·.id)).Nodup
  commit : ∀ m, (∀ r ∈ c.revisions, r.id ≠ Int64.maxValue) →
    (c.commit m).1 ∉ c.revisions.map (·.id)

theorem BucketsAscend.freshBucketIds {c : Catalog} (h : c.BucketsAscend) : c.FreshBucketIds where
  nodup := nodup_ids_of_ascend h
  createBucket name owner hmax := by
    have hfresh := not_mem_ids_of_lt (lt_createBucket h name owner hmax)
    exact ⟨hfresh, fun b hb => mem_putBucket_of_fresh hfresh hb⟩

theorem RevisionsAscend.freshRevisionIds {c : Catalog} (h : c.RevisionsAscend) :
    c.FreshRevisionIds where
  nodup := nodup_ids_of_ascend h
  commit m hmax := not_mem_ids_of_lt (lt_commit h m hmax)

/-- Along every run of calls from the empty catalog, bucket ids stay distinct and a created
bucket gets a fresh id, replacing none, unless a bucket has the largest 64-bit id. When the run
inserts each revision with an id above every earlier one and commits nothing after a revision
with the largest id, revision ids stay distinct and the next commit gets a fresh id too. -/
theorem freshIds_of_run (ops : List Op) :
    (Op.run empty ops).FreshBucketIds ∧
      (Op.InOrder empty ops → (Op.run empty ops).FreshRevisionIds) :=
  ⟨(bucketsAscend_empty.run ops).freshBucketIds,
    fun h => (revisionsAscend_empty.run h).freshRevisionIds⟩

/-- Creating a bucket and committing twice to it is an ordered run: the commits get the ids 1 and
2, and the next commit a fresh one. -/
theorem freshIds_of_bucket_with_two_commits :
    Op.InOrder empty [.createBucket "b" "o", .commit ⟨1, "n", "k", "t", 0, "", []⟩,
        .commit ⟨1, "n", "k", "t", 5, "", []⟩] ∧
      (Op.run empty [.createBucket "b" "o", .commit ⟨1, "n", "k", "t", 0, "", []⟩,
        .commit ⟨1, "n", "k", "t", 5, "", []⟩]).revisions.map (·.id) = [1, 2] ∧
      (Op.run empty [.createBucket "b" "o", .commit ⟨1, "n", "k", "t", 0, "", []⟩,
        .commit ⟨1, "n", "k", "t", 5, "", []⟩]).FreshRevisionIds := by
  have hord : Op.InOrder empty [.createBucket "b" "o", .commit ⟨1, "n", "k", "t", 0, "", []⟩,
      .commit ⟨1, "n", "k", "t", 5, "", []⟩] := by
    simp only [Op.InOrder, Op.Ordered, and_true, true_and]
    decide
  exact ⟨hord, by decide, (freshIds_of_run _).2 hord⟩

/-- After revisions with ids 2 and then 1 are inserted into the empty catalog, a commit hands
out the id 2 again, and two revisions share it. -/
theorem commit_reuses_id_after_unordered_inserts :
    ((Op.run empty [.insertRevision ⟨2, 1, "a", 0, "", []⟩,
        .insertRevision ⟨1, 1, "b", 0, "", []⟩]).commit ⟨1, "c", "k", "t", 0, "", []⟩).1 = 2 ∧
      (2 : Int64) ∈ (Op.run empty [.insertRevision ⟨2, 1, "a", 0, "", []⟩,
        .insertRevision ⟨1, 1, "b", 0, "", []⟩]).revisions.map (·.id) ∧
      ¬ (((Op.run empty [.insertRevision ⟨2, 1, "a", 0, "", []⟩,
        .insertRevision ⟨1, 1, "b", 0, "", []⟩]).commit
          ⟨1, "c", "k", "t", 0, "", []⟩).2.1.revisions.map (·.id)).Nodup := by
  decide

end Catalog

end CatalogQuery
