import CatalogQuery.Proofs.Evaluation

/-!
# Commits keep each object at its latest revision

A catalog grown from the empty one by creating buckets and committing revisions numbers its
revisions 1, 2, … in commit order (in 64-bit arithmetic), each recording its commit, and keeps
for every object key that has a commit exactly one object: that of the key's latest commit, the
last of those with the largest commit time (`Commit.LatestOf`). The ordering of a commit's time
against the object's decides this: an older commit leaves the object alone, a commit of the same
time or later takes it over.

`Catalog.Tracks` is this invariant; `Tracks.commit` and `Tracks.createBucket` say that each call
keeps it, and `tracks_ofCalls` that every run does. Since the object join keeps a revision only if
its object was last committed at the revision's time, a filter with a constraint then matches
only revisions of the largest commit time of their key (`Tracks.latest_of_matching`).
-/

namespace CatalogQuery

/-- The object a commit leaves when it is the latest of its key. -/
def Commit.object (m : Commit) : CatalogObject :=
  ⟨m.bucketId, m.name, m.kind, m.contentType, m.commitTime⟩

/-- The revision a commit records under an id. -/
def Commit.revision (m : Commit) (id : Int64) : Revision :=
  ⟨id, m.bucketId, m.name, m.commitTime, m.commitMessage, m.metadata⟩

/-- `m` is the latest commit of key `(b, n)` in a history: a commit of the key that no commit of
the key exceeds in time, after which every commit of the key is strictly older. -/
structure Commit.LatestOf (hist : List Commit) (b : Int64) (n : String) (m : Commit) : Prop where
  bucketId : m.bucketId = b
  name : m.name = n
  maximal : ∀ m' ∈ hist, m'.bucketId = b → m'.name = n → m'.commitTime ≤ m.commitTime
  last : ∃ pre post, hist = pre ++ m :: post ∧
    ∀ m' ∈ post, m'.bucketId = b → m'.name = n → m'.commitTime < m.commitTime

namespace Commit.LatestOf

variable {hist : List Commit} {b : Int64} {n : String} {m : Commit}

/-- A later commit strictly older than the latest, or of another key, changes nothing. -/
theorem snoc_of_older (h : m.LatestOf hist b n) (m' : Commit)
    (hm' : m'.bucketId = b → m'.name = n → m'.commitTime < m.commitTime) :
    m.LatestOf (hist ++ [m']) b n where
  bucketId := h.bucketId
  name := h.name
  maximal x hx hb hn := by
    rcases List.mem_append.1 hx with hx | hx
    · exact h.maximal x hx hb hn
    · rw [List.mem_singleton.1 hx] at hb hn ⊢
      exact Int64.le_of_lt (hm' hb hn)
  last := by
    obtain ⟨pre, post, hsplit, hpost⟩ := h.last
    refine ⟨pre, post ++ [m'], by simp [hsplit], fun x hx hb hn => ?_⟩
    rcases List.mem_append.1 hx with hx | hx
    · exact hpost x hx hb hn
    · rw [List.mem_singleton.1 hx] at hb hn ⊢
      exact hm' hb hn

/-- A commit of the key no older than any before it is the latest. -/
theorem snoc_self (hb : m.bucketId = b) (hn : m.name = n)
    (hmax : ∀ m' ∈ hist, m'.bucketId = b → m'.name = n → m'.commitTime ≤ m.commitTime) :
    m.LatestOf (hist ++ [m]) b n where
  bucketId := hb
  name := hn
  maximal x hx hxb hxn := by
    rcases List.mem_append.1 hx with hx | hx
    · exact hmax x hx hxb hxn
    · rw [List.mem_singleton.1 hx]
      exact Int64.le_refl _
  last := ⟨hist, [], rfl, by simp⟩

end Commit.LatestOf

namespace Catalog

/-! ### The object order -/

theorem keyLt_iff {b₁ b₂ : Int64} {n₁ n₂ : String} :
    keyLt b₁ n₁ b₂ n₂ = true ↔ b₁ < b₂ ∨ (b₁ = b₂ ∧ n₁ < n₂) := by
  simp [keyLt]

theorem keyLt_irrefl (b : Int64) (n : String) : keyLt b n b n = false := by
  cases h : keyLt b n b n
  · rfl
  · rcases keyLt_iff.1 h with h | ⟨-, h⟩
    · exact absurd h Int64.lt_irrefl
    · exact absurd h (lt_irrefl n)

theorem keyLt_trans {b₁ b₂ b₃ : Int64} {n₁ n₂ n₃ : String} (h₁ : keyLt b₁ n₁ b₂ n₂ = true)
    (h₂ : keyLt b₂ n₂ b₃ n₃ = true) : keyLt b₁ n₁ b₃ n₃ = true := by
  rw [keyLt_iff] at h₁ h₂ ⊢
  rcases h₁ with h₁ | ⟨rfl, h₁⟩ <;> rcases h₂ with h₂ | ⟨rfl, h₂⟩
  · exact .inl (Int64.lt_trans h₁ h₂)
  · exact .inl h₁
  · exact .inl h₂
  · exact .inr ⟨rfl, lt_trans h₁ h₂⟩

theorem keyLt_of_not {b₁ b₂ : Int64} {n₁ n₂ : String} (h : keyLt b₁ n₁ b₂ n₂ = false)
    (hne : ¬ (b₁ = b₂ ∧ n₁ = n₂)) : keyLt b₂ n₂ b₁ n₁ = true := by
  rw [keyLt_iff]
  have h' : ¬ (b₁ < b₂ ∨ (b₁ = b₂ ∧ n₁ < n₂)) := by
    rw [← keyLt_iff, h]
    exact Bool.false_ne_true
  rcases Int64.lt_or_le b₂ b₁ with hb | hb
  · exact .inl hb
  · have hb' : b₁ = b₂ := Int64.le_antisymm hb (Int64.not_lt.1 fun hlt => h' (.inl hlt))
    refine .inr ⟨hb'.symm, ?_⟩
    rcases lt_trichotomy n₁ n₂ with hn | hn | hn
    · exact absurd (.inr ⟨hb', hn⟩) h'
    · exact absurd ⟨hb', hn⟩ hne
    · exact hn

/-- Objects listed in strictly increasing key order, so one per key. -/
def KeysAscend (os : List CatalogObject) : Prop :=
  os.Pairwise fun o o' => keyLt o.bucketId o.name o'.bucketId o'.name = true

/-- The test `object?` makes of an object. -/
def hasKey (b : Int64) (n : String) (o : CatalogObject) : Bool := o.bucketId == b && o.name == n

theorem hasKey_iff {b : Int64} {n : String} {o : CatalogObject} :
    hasKey b n o = true ↔ o.bucketId = b ∧ o.name = n := by
  simp [hasKey]

/-! ### Putting an object -/

theorem mem_putObject {o x : CatalogObject} {os : List CatalogObject} (h : x ∈ putObject o os) :
    x = o ∨ x ∈ os := by
  induction os with
  | nil => simpa [putObject] using h
  | cons y rest ih =>
    unfold putObject at h
    split at h
    · simpa using h
    · split at h
      · rcases List.mem_cons.1 h with h | h
        · exact .inl h
        · exact .inr (List.mem_cons_of_mem _ h)
      · rcases List.mem_cons.1 h with h | h
        · exact .inr (h ▸ List.mem_cons_self)
        · rcases ih h with h | h
          · exact .inl h
          · exact .inr (List.mem_cons_of_mem _ h)

theorem find?_putObject_self (o : CatalogObject) (os : List CatalogObject) :
    (putObject o os).find? (hasKey o.bucketId o.name) = some o := by
  induction os with
  | nil => simp [putObject, hasKey]
  | cons x rest ih =>
    unfold putObject
    split
    · simp [hasKey]
    · split
      · simp [hasKey]
      · rename_i heq
        have hx : hasKey o.bucketId o.name x = false := by
          rw [Bool.eq_false_iff, ne_eq, hasKey_iff]
          rintro ⟨hb, hn⟩
          exact heq (by simp [hb, hn])
        simp [hx, ih]

theorem find?_putObject_of_ne {o : CatalogObject} {b : Int64} {n : String}
    (hne : ¬ (o.bucketId = b ∧ o.name = n)) (os : List CatalogObject) :
    (putObject o os).find? (hasKey b n) = os.find? (hasKey b n) := by
  have ho : hasKey b n o = false := by simpa [hasKey] using hne
  induction os with
  | nil => simp [putObject, ho]
  | cons x rest ih =>
    unfold putObject
    split
    · rw [List.find?_cons_of_neg (by simp [ho])]
    · split
      · rename_i heq
        have hx : hasKey b n x = false := by
          simp only [hasKey, Bool.and_eq_true, beq_iff_eq] at heq ho ⊢
          rw [← heq.1, ← heq.2]
          exact ho
        rw [List.find?_cons_of_neg (by simp [ho]), List.find?_cons_of_neg (by simp [hx])]
      · by_cases hx : hasKey b n x = true
        · simp [hx]
        · simp [hx, ih]

theorem keysAscend_putObject {os : List CatalogObject} (h : KeysAscend os) (o : CatalogObject) :
    KeysAscend (putObject o os) := by
  induction os with
  | nil => simp [putObject, KeysAscend]
  | cons x rest ih =>
    obtain ⟨hx, hrest⟩ := List.pairwise_cons.1 h
    unfold putObject
    split
    · rename_i hlt
      refine List.Pairwise.cons (fun y hy => ?_) h
      rcases List.mem_cons.1 hy with rfl | hy
      · exact hlt
      · exact keyLt_trans hlt (hx y hy)
    · split
      · rename_i heq
        simp only [Bool.and_eq_true, beq_iff_eq] at heq
        refine List.Pairwise.cons (fun y hy => ?_) hrest
        rw [heq.1, heq.2]
        exact hx y hy
      · rename_i hlt heq
        refine List.Pairwise.cons (fun y hy => ?_) (ih hrest)
        rcases mem_putObject hy with rfl | hy
        · -- `o` goes after `x`: its key is neither smaller nor equal
          refine keyLt_of_not (by simpa using hlt) fun he => heq ?_
          simp [he.1, he.2]
        · exact hx y hy

theorem eq_of_keysAscend {os : List CatalogObject} (h : KeysAscend os) {o o' : CatalogObject}
    (ho : o ∈ os) (ho' : o' ∈ os) (hb : o'.bucketId = o.bucketId) (hn : o'.name = o.name) :
    o' = o := by
  induction os with
  | nil => simp at ho
  | cons x rest ih =>
    obtain ⟨hx, hrest⟩ := List.pairwise_cons.1 h
    rcases List.mem_cons.1 ho with rfl | hor <;> rcases List.mem_cons.1 ho' with rfl | hor'
    · rfl
    · have hlt := hx o' hor'
      rw [hb, hn, keyLt_irrefl] at hlt
      cases hlt
    · have hlt := hx o hor
      rw [← hb, ← hn, keyLt_irrefl] at hlt
      cases hlt
    · exact ih hrest hor hor'

/-! ### What a call does -/

theorem object?_eq_find? (c : Catalog) (b : Int64) (n : String) :
    c.object? b n = c.objects.find? (hasKey b n) := rfl

theorem object?_mem {c : Catalog} {b : Int64} {n : String} {o : CatalogObject}
    (h : c.object? b n = some o) : o ∈ c.objects ∧ o.bucketId = b ∧ o.name = n :=
  ⟨List.mem_of_find?_eq_some h, hasKey_iff.1 (List.find?_some h)⟩

theorem commit_revisions (c : Catalog) (m : Commit) :
    (c.commit m).2.1.revisions = c.revisions ++ [m.revision (match c.revisions.getLast? with
      | some last => last.id + 1
      | none => 1)] := rfl

/-- What a commit does to the objects: one older than the object of its key leaves them as they
were, any other puts the commit's object under its key. -/
theorem commit_objects (c : Catalog) (m : Commit) :
    (∃ o, c.object? m.bucketId m.name = some o ∧ m.commitTime < o.lastCommitTime ∧
      (c.commit m).2.1.objects = c.objects) ∨
    ((∀ o, c.object? m.bucketId m.name = some o → o.lastCommitTime ≤ m.commitTime) ∧
      (c.commit m).2.1.objects = putObject m.object c.objects) := by
  cases ho : c.object? m.bucketId m.name with
  | none =>
    refine .inr ⟨fun o' h => ?_, by simp only [commit, ho]; rfl⟩
    cases h
  | some o =>
    by_cases hlt : o.lastCommitTime > m.commitTime
    · exact .inl ⟨o, rfl, hlt, by simp only [commit, ho, hlt, if_true]⟩
    · obtain ⟨-, hb, hn⟩ := object?_mem ho
      refine .inr ⟨fun o' h => ?_, ?_⟩
      · cases h
        exact Int64.not_lt.1 hlt
      · -- the object found has the commit's key, so the update is the commit's object
        simp only [commit, ho, hlt, if_false]
        obtain ⟨ob, on, ok, oc, ot⟩ := o
        dsimp only at hb hn
        subst hb hn
        rfl

/-! ### The invariant -/

/-- What a catalog keeps of the commits made to it: the revisions record the commits in order
under ids 1, 2, …; the objects ascend strictly by key, each of a key some commit has; and under
every key some commit has, `object?` finds the object of the key's latest commit. -/
structure Tracks (c : Catalog) (hist : List Commit) : Prop where
  revisions : c.revisions = hist.mapIdx fun i m => m.revision (Int64.ofNat (i + 1))
  ascend : KeysAscend c.objects
  committed : ∀ o ∈ c.objects, ∃ m ∈ hist, m.bucketId = o.bucketId ∧ m.name = o.name
  latest : ∀ b n, (∃ m ∈ hist, m.bucketId = b ∧ m.name = n) →
    ∃ m : Commit, m.LatestOf hist b n ∧ c.object? b n = some m.object

theorem tracks_empty : empty.Tracks [] where
  revisions := rfl
  ascend := List.Pairwise.nil
  committed o ho := by simp [empty] at ho
  latest b n h := by simp at h

theorem nextId_eq {c : Catalog} {hist : List Commit}
    (h : c.revisions = hist.mapIdx fun i m => m.revision (Int64.ofNat (i + 1))) :
    (match c.revisions.getLast? with
      | some last => last.id + 1
      | none => 1) = Int64.ofNat (hist.length + 1) := by
  rw [h, List.getLast?_mapIdx]
  cases hl : hist.getLast? with
  | none =>
    rw [List.getLast?_eq_none_iff] at hl
    subst hl
    rfl
  | some x =>
    have hpos : 0 < hist.length := List.length_pos_iff.2 fun hnil => by simp [hnil] at hl
    show Int64.ofNat (hist.length - 1 + 1) + 1 = Int64.ofNat (hist.length + 1)
    rw [Nat.sub_add_cancel hpos, Int64.ofNat_add]
    rfl

theorem Tracks.createBucket {c : Catalog} {hist : List Commit} (h : c.Tracks hist)
    (name owner : String) : (c.createBucket name owner).2.Tracks hist :=
  ⟨h.revisions, h.ascend, h.committed, h.latest⟩

/-- After a commit, every key finds the object of its latest commit. -/
theorem Tracks.latest_commit {c : Catalog} {hist : List Commit} (h : c.Tracks hist) (m : Commit)
    (b : Int64) (n : String) (hbn : ∃ m' ∈ hist ++ [m], m'.bucketId = b ∧ m'.name = n) :
    ∃ m' : Commit, m'.LatestOf (hist ++ [m]) b n ∧ (c.commit m).2.1.object? b n = some m'.object := by
  by_cases hkey : m.bucketId = b ∧ m.name = n
  · obtain ⟨rfl, rfl⟩ := hkey
    rcases commit_objects c m with ⟨o, ho, hlt, hc⟩ | ⟨hle, hc⟩
    · -- an older commit leaves the object of the key's latest commit
      obtain ⟨ho_mem, hob, hon⟩ := object?_mem ho
      obtain ⟨m₀, hm₀, hb₀, hn₀⟩ := h.committed o ho_mem
      obtain ⟨m', hlat, hobj⟩ := h.latest _ _ ⟨m₀, hm₀, hb₀.trans hob, hn₀.trans hon⟩
      have heq : o = m'.object := Option.some.inj (ho.symm.trans hobj)
      refine ⟨m', hlat.snoc_of_older m fun _ _ => ?_, ?_⟩
      · rw [heq] at hlt
        exact hlt
      · rw [object?_eq_find?, hc]
        exact hobj
    · -- a commit no older than the object takes it over
      refine ⟨m, .snoc_self rfl rfl fun m' hm' hb hn => ?_, ?_⟩
      · obtain ⟨m'', hlat, hobj⟩ := h.latest _ _ ⟨m', hm', hb, hn⟩
        exact Int64.le_trans (hlat.maximal m' hm' hb hn) (hle _ hobj)
      · rw [object?_eq_find?, hc]
        exact find?_putObject_self m.object c.objects
  · obtain ⟨m', hm', hb, hn⟩ := hbn
    have hm'hist : m' ∈ hist := by
      rcases List.mem_append.1 hm' with hm' | hm'
      · exact hm'
      · rw [List.mem_singleton.1 hm'] at hb hn
        exact absurd ⟨hb, hn⟩ hkey
    obtain ⟨m'', hlat, hobj⟩ := h.latest b n ⟨m', hm'hist, hb, hn⟩
    refine ⟨m'', hlat.snoc_of_older m fun hb' hn' => absurd ⟨hb', hn'⟩ hkey, ?_⟩
    rcases commit_objects c m with ⟨-, -, -, hc⟩ | ⟨-, hc⟩
    · rw [object?_eq_find?, hc]
      exact hobj
    · rw [object?_eq_find?, hc, find?_putObject_of_ne hkey]
      exact hobj

theorem Tracks.commit {c : Catalog} {hist : List Commit} (h : c.Tracks hist) (m : Commit) :
    (c.commit m).2.1.Tracks (hist ++ [m]) := by
  have hobj := commit_objects c m
  refine ⟨?_, ?_, fun o ho => ?_, h.latest_commit m⟩
  · rw [commit_revisions, nextId_eq h.revisions, h.revisions, List.mapIdx_concat]
  · rcases hobj with ⟨-, -, -, hc⟩ | ⟨-, hc⟩ <;> rw [hc]
    · exact h.ascend
    · exact keysAscend_putObject h.ascend _
  · -- an object is an old one or the commit's
    have hold : o ∈ c.objects → ∃ m' ∈ hist ++ [m], m'.bucketId = o.bucketId ∧ m'.name = o.name :=
      fun ho => by
        obtain ⟨m', hm', hb, hn⟩ := h.committed o ho
        exact ⟨m', List.mem_append_left _ hm', hb, hn⟩
    rcases hobj with ⟨-, -, -, hc⟩ | ⟨-, hc⟩ <;> rw [hc] at ho
    · exact hold ho
    · rcases mem_putObject ho with rfl | ho
      · exact ⟨m, by simp, rfl, rfl⟩
      · exact hold ho

/-! ### Runs of calls -/

/-- A call that grows a catalog: creating a bucket, or committing a revision. -/
inductive Call where
  | createBucket (name owner : String)
  | commit (m : Commit)

/-- The catalog after a call. -/
def Call.apply (c : Catalog) : Call → Catalog
  | .createBucket name owner => (c.createBucket name owner).2
  | .commit m => (c.commit m).2.1

/-- The commit a call makes, if it is one. -/
def Call.commit? : Call → Option Commit
  | .createBucket .. => none
  | .commit m => some m

/-- The catalog that calls build from the empty one, made in order. -/
def ofCalls (calls : List Call) : Catalog := calls.foldl Call.apply empty

/-- The commits among calls, in order. -/
def Call.commits (calls : List Call) : List Commit := calls.filterMap Call.commit?

/-- Every run of calls from the empty catalog keeps the invariant over its commits. -/
theorem tracks_ofCalls (calls : List Call) : (ofCalls calls).Tracks (Call.commits calls) := by
  induction calls using List.reverseRecOn with
  | nil => exact tracks_empty
  | append_singleton calls call ih =>
    rw [ofCalls, List.foldl_append, List.foldl_cons, List.foldl_nil, Call.commits,
      List.filterMap_append]
    cases call with
    | createBucket name owner =>
      simp only [Call.commit?, List.filterMap_cons, List.filterMap_nil, List.append_nil]
      exact ih.createBucket name owner
    | commit m =>
      simp only [Call.commit?, List.filterMap_cons, List.filterMap_nil]
      exact ih.commit m

/-! ### What a search matches -/

theorem mem_foldl_keepRow (P : Row → Bool) (distinct : Bool) (r : Revision) :
    ∀ (ts : List Row) (acc : Array Revision × List Int64) {x : Revision},
      x ∈ (ts.foldl (keepRow P distinct r) acc).1.toList →
      x ∈ acc.1.toList ∨ (x = r ∧ ∃ t ∈ ts, P t = true)
  | [], _, _, hx => .inl hx
  | t :: ts, acc, x, hx => by
    rw [List.foldl_cons] at hx
    rcases mem_foldl_keepRow P distinct r ts _ hx with hx | ⟨rfl, t', ht', hp⟩
    · unfold keepRow at hx
      split at hx
      · exact .inl hx
      · split at hx
        · exact .inl hx
        · rename_i hp _
          rw [Array.toList_push, List.mem_append, List.mem_singleton] at hx
          rcases hx with hx | rfl
          · exact .inl hx
          · exact .inr ⟨rfl, t, List.mem_cons_self, by simpa using hp⟩
    · exact .inr ⟨rfl, t', List.mem_cons_of_mem _ ht', hp⟩

theorem mem_foldl_foldl_keepRow (P : Row → Bool) (distinct : Bool) (rows : Revision → List Row) :
    ∀ (rs : List Revision) (acc : Array Revision × List Int64) {x : Revision},
      x ∈ (rs.foldl (fun acc r => (rows r).foldl (keepRow P distinct r) acc) acc).1.toList →
      x ∈ acc.1.toList ∨ (x ∈ rs ∧ ∃ t ∈ rows x, P t = true)
  | [], _, _, hx => .inl hx
  | r :: rs, acc, x, hx => by
    rw [List.foldl_cons] at hx
    rcases mem_foldl_foldl_keepRow P distinct rows rs _ hx with hx | ⟨hxr, hp⟩
    · rcases mem_foldl_keepRow P distinct r (rows r) acc hx with hx | ⟨rfl, hp⟩
      · exact .inl hx
      · exact .inr ⟨List.mem_cons_self, hp⟩
    · exact .inr ⟨List.mem_cons_of_mem _ hxr, hp⟩

/-- A search matches only revisions of the catalog with a row that passes the filter. -/
theorem mem_of_matching (c : Catalog) {build : RegexBuild} {f : CompiledFilter}
    {rows : List Revision} {record : LogRecord} (h : c.matching build f = .ok (rows, record))
    {r : Revision} (hr : r ∈ rows) :
    r ∈ c.revisions ∧ ∃ t ∈ c.rowsOf f.graph r, f.predicate.holds t = true := by
  have hfold : (c.revisions.foldl (fun acc r => (c.rowsOf f.graph r).foldl
      (keepRow f.predicate.holds f.needsDistinct r) acc) (#[], [])).1.toList = rows := by
    unfold matching at h
    dsimp only at h
    cases hp : f.predicate.patterns.forM build.pattern with
    | error err =>
      rw [hp] at h
      cases h
    | ok u =>
      rw [hp] at h
      exact (Prod.mk.inj (Except.ok.inj h)).1
  rw [← hfold] at hr
  rcases mem_foldl_foldl_keepRow _ _ _ c.revisions (#[], []) hr with hr | hr
  · simp at hr
  · exact hr

theorem Tracks.mem_revisions {c : Catalog} {hist : List Commit} (h : c.Tracks hist) {r : Revision}
    (hr : r ∈ c.revisions) :
    ∃ m ∈ hist, m.bucketId = r.bucketId ∧ m.name = r.name ∧ m.commitTime = r.commitTime := by
  rw [h.revisions, List.mem_mapIdx] at hr
  obtain ⟨i, hi, rfl⟩ := hr
  exact ⟨hist[i], List.getElem_mem hi, rfl, rfl, rfl⟩

theorem Tracks.revision_mem {c : Catalog} {hist : List Commit} (h : c.Tracks hist) {m : Commit}
    (hm : m ∈ hist) : ∃ r ∈ c.revisions, r.bucketId = m.bucketId ∧ r.name = m.name := by
  obtain ⟨i, hi, rfl⟩ := List.getElem_of_mem hm
  rw [h.revisions]
  exact ⟨_, List.mem_mapIdx.2 ⟨i, hi, rfl⟩, rfl, rfl⟩

/-- In a catalog that tracks its commits, a filter with a constraint matches only revisions of
the largest commit time of their key: the object join keeps a revision only if the object was last
committed at its time, and the object holds the key's largest time. -/
theorem Tracks.latest_of_matching {c : Catalog} {hist : List Commit} (h : c.Tracks hist)
    {config : CompilerConfig} {R : Registry} (hR : R.LeafOnly) {e : Expression} {journal : Journal}
    {f : CompiledFilter} (hc : (compile config R (some e) journal).1 = .ok f)
    (he : e.constraints ≠ []) {build : RegexBuild} {rows : List Revision} {record : LogRecord}
    (hm : c.matching build f = .ok (rows, record)) {r : Revision} (hr : r ∈ rows) :
    ∀ r' ∈ c.revisions, r'.bucketId = r.bucketId → r'.name = r.name →
      r'.commitTime ≤ r.commitTime := by
  obtain ⟨hrc, t, ht, -⟩ := c.mem_of_matching hm hr
  obtain ⟨-, hgraph, -⟩ := compile_realizes hR hc
  have hwf : f.graph.Wf := hgraph ▸ JoinGraph.wf_empty.joinAll _
  have hco : Relation.catalogObject ∈ f.graph.relations := by
    rw [hgraph]
    exact (mem_relations_compiled e.constraints).1.2 he
  obtain ⟨x, hx, -⟩ := (c.mem_rowsOf hwf r t).1 ht
  obtain ⟨hobj, htime⟩ := hx.1 hco
  obtain ⟨m, hm, hb, hn, -⟩ := h.mem_revisions hrc
  obtain ⟨m', hlat, hobj'⟩ := h.latest _ _ ⟨m, hm, hb, hn⟩
  have hx' : x.object = m'.object := Option.some.inj (hobj.symm.trans hobj')
  intro r' hr' hb' hn'
  obtain ⟨m'', hm'', hb'', hn'', ht''⟩ := h.mem_revisions hr'
  rw [← ht'', ← htime, hx']
  exact hlat.maximal m'' hm'' (hb''.trans hb') (hn''.trans hn')

end Catalog

/-- Any run of bucket creations and commits from the empty catalog numbers its revisions 1, 2, …
in commit order (in 64-bit arithmetic), each recording its commit. Under every key that has a
revision exactly one object exists, the one `object?` finds: its last commit time is the largest
commit time of the key, and its kind and content type are those of the last commit of the key
with that time. No other object exists. So a filter with a constraint, compiled under a registry
of built-in handlers, matches only revisions of the largest commit time of their key, whatever
regex engine the search builds its patterns with. -/
theorem ofCalls_tracks_latest_revision (calls : List Catalog.Call) :
    (Catalog.ofCalls calls).revisions.map (·.id) =
        (List.range (Catalog.Call.commits calls).length).map (fun i => Int64.ofNat (i + 1)) ∧
      (Catalog.ofCalls calls).revisions =
        (Catalog.Call.commits calls).mapIdx (fun i m => m.revision (Int64.ofNat (i + 1))) ∧
      (∀ b n, (∃ r ∈ (Catalog.ofCalls calls).revisions, r.bucketId = b ∧ r.name = n) →
        ∃ m : Commit, m.LatestOf (Catalog.Call.commits calls) b n ∧
          (Catalog.ofCalls calls).object? b n = some m.object ∧
          ∀ o ∈ (Catalog.ofCalls calls).objects, o.bucketId = b → o.name = n → o = m.object) ∧
      (∀ o ∈ (Catalog.ofCalls calls).objects,
        ∃ r ∈ (Catalog.ofCalls calls).revisions, r.bucketId = o.bucketId ∧ r.name = o.name) ∧
      (∀ (config : CompilerConfig) (R : Registry), R.LeafOnly → ∀ (e : Expression)
        (journal : Journal) (f : CompiledFilter), (compile config R (some e) journal).1 = .ok f →
        e.constraints ≠ [] → ∀ (build : RegexBuild) rows record,
        (Catalog.ofCalls calls).matching build f = .ok (rows, record) →
        ∀ r ∈ rows, ∀ r' ∈ (Catalog.ofCalls calls).revisions,
          r'.bucketId = r.bucketId → r'.name = r.name → r'.commitTime ≤ r.commitTime) := by
  have h := Catalog.tracks_ofCalls calls
  refine ⟨?_, h.revisions, fun b n hbn => ?_, fun o ho => ?_,
    fun config R hR e journal f hc he build rows record hm r hr =>
      h.latest_of_matching hR hc he hm hr⟩
  · rw [h.revisions]
    apply List.ext_getElem (by simp)
    intro i h₁ h₂
    simp [Commit.revision]
  · obtain ⟨r, hr, hb, hn⟩ := hbn
    obtain ⟨m, hm, hmb, hmn, -⟩ := h.mem_revisions hr
    obtain ⟨m', hlat, hobj⟩ := h.latest b n ⟨m, hm, hmb.trans hb, hmn.trans hn⟩
    obtain ⟨hmem, -, -⟩ := Catalog.object?_mem hobj
    refine ⟨m', hlat, hobj, fun o ho hob hon => ?_⟩
    exact Catalog.eq_of_keysAscend h.ascend hmem ho (hob.trans hlat.bucketId.symm)
      (hon.trans hlat.name.symm)
  · obtain ⟨m, hm, hb, hn⟩ := h.committed o ho
    obtain ⟨r, hr, hrb, hrn⟩ := h.revision_mem hm
    exact ⟨r, hr, hrb.trans hb, hrn.trans hn⟩

end CatalogQuery
