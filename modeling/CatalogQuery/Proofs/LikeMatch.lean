import CatalogQuery.Catalog.Like

/-!
# Like patterns match as SQL reads them

`Like.Matches p w` is the SQL reading of a pattern `p` on a text `w`: `%` matches any run of
characters, possibly empty, `_` any one character, and every other character itself.
`Like.accepts_iff` says that the automaton of `Like.accepts` decides it.

The automaton keeps an array of marked pattern positions. After reading a prefix `w` of the
text, position `j` is marked exactly when the first `j` characters of the pattern match `w`, or
position `j` holds a `%` and the first `j + 1` characters match `w`, the text being inside that
`%` (`Like.Reached`). The proof follows the text one character at a time (`reached_snoc_iff`),
reading the two folds of the automaton as sets of positions (`close_marks`, `step_marks`).
-/

namespace CatalogQuery.Like

/-- The SQL reading of a like pattern on a text, both as characters. -/
def Matches : List Char → List Char → Prop
  | [], w => w = []
  | a :: p, w =>
    if a = '%' then ∃ u v, w = u ++ v ∧ Matches p v
    else ∃ c v, w = c :: v ∧ (a = '_' ∨ a = c) ∧ Matches p v

@[simp] theorem matches_nil (w : List Char) : Matches [] w ↔ w = [] := by
  rw [Matches]

theorem matches_percent (p w : List Char) :
    Matches ('%' :: p) w ↔ ∃ u v, w = u ++ v ∧ Matches p v := by
  rw [Matches, if_pos rfl]

theorem matches_cons_of_ne {a : Char} (ha : a ≠ '%') (p w : List Char) :
    Matches (a :: p) w ↔ ∃ c v, w = c :: v ∧ (a = '_' ∨ a = c) ∧ Matches p v := by
  rw [Matches, if_neg ha]

/-- A pattern split in two matches the texts split in two. -/
theorem matches_append (p q w : List Char) :
    Matches (p ++ q) w ↔ ∃ u v, w = u ++ v ∧ Matches p u ∧ Matches q v := by
  induction p generalizing w with
  | nil =>
    constructor
    · intro h
      exact ⟨[], w, rfl, (matches_nil _).2 rfl, h⟩
    · rintro ⟨u, v, rfl, hu, hv⟩
      rw [(matches_nil u).1 hu]
      exact hv
  | cons a p ih =>
    by_cases ha : a = '%'
    · subst ha
      rw [List.cons_append, matches_percent]
      constructor
      · rintro ⟨u, v, rfl, hv⟩
        obtain ⟨u', v', rfl, hp, hq⟩ := (ih v).1 hv
        exact ⟨u ++ u', v', by simp, (matches_percent p _).2 ⟨u, u', rfl, hp⟩, hq⟩
      · rintro ⟨U, V, rfl, hU, hV⟩
        obtain ⟨u, u', rfl, hp⟩ := (matches_percent p U).1 hU
        exact ⟨u, u' ++ V, by simp, (ih _).2 ⟨u', V, rfl, hp, hV⟩⟩
    · rw [List.cons_append, matches_cons_of_ne ha]
      constructor
      · rintro ⟨c, v, rfl, hc, hv⟩
        obtain ⟨u', v', rfl, hp, hq⟩ := (ih v).1 hv
        exact ⟨c :: u', v', rfl, (matches_cons_of_ne ha p _).2 ⟨c, u', rfl, hc, hp⟩, hq⟩
      · rintro ⟨U, V, rfl, hU, hV⟩
        obtain ⟨c, u', rfl, hc, hp⟩ := (matches_cons_of_ne ha p U).1 hU
        exact ⟨c, u' ++ V, rfl, hc, (ih _).2 ⟨u', V, rfl, hp, hV⟩⟩

theorem matches_append_percent (p w : List Char) :
    Matches (p ++ ['%']) w ↔ ∃ u v, w = u ++ v ∧ Matches p u := by
  have hpercent : ∀ v, Matches ['%'] v := fun v => (matches_percent _ _).2 ⟨v, [], by simp, rfl⟩
  simp only [matches_append, hpercent, and_true]

theorem matches_append_single {a : Char} (ha : a ≠ '%') (p w : List Char) :
    Matches (p ++ [a]) w ↔ ∃ u c, w = u ++ [c] ∧ (a = '_' ∨ a = c) ∧ Matches p u := by
  rw [matches_append]
  constructor
  · rintro ⟨u, v, rfl, hp, hv⟩
    obtain ⟨c, v', rfl, hc, hv'⟩ := (matches_cons_of_ne ha [] v).1 hv
    rw [(matches_nil v').1 hv']
    exact ⟨u, c, rfl, hc, hp⟩
  · rintro ⟨u, c, rfl, hc, hp⟩
    exact ⟨u, [c], rfl, hp, (matches_cons_of_ne ha [] _).2 ⟨c, [], rfl, hc, rfl⟩⟩

/-! ### Reading one more character -/

/-- A trailing `%` matches nothing of the last character, or takes it in. -/
theorem matches_append_percent_snoc (p w : List Char) (c : Char) :
    Matches (p ++ ['%']) (w ++ [c]) ↔ Matches p (w ++ [c]) ∨ Matches (p ++ ['%']) w := by
  rw [matches_append_percent, matches_append_percent]
  constructor
  · rintro ⟨u, v, huv, hp⟩
    rcases List.eq_nil_or_concat v with rfl | ⟨v', b, rfl⟩
    · rw [List.append_nil] at huv
      exact .inl (huv ▸ hp)
    · rw [List.concat_eq_append, ← List.append_assoc] at huv
      obtain ⟨hw, -⟩ := List.append_inj' huv rfl
      exact .inr ⟨u, v', hw, hp⟩
  · rintro (hp | ⟨u, v, rfl, hp⟩)
    · exact ⟨w ++ [c], [], by simp, hp⟩
    · exact ⟨u, v ++ [c], by simp, hp⟩

theorem matches_append_single_snoc {a : Char} (ha : a ≠ '%') (p w : List Char) (c : Char) :
    Matches (p ++ [a]) (w ++ [c]) ↔ (a = '_' ∨ a = c) ∧ Matches p w := by
  rw [matches_append_single ha]
  constructor
  · rintro ⟨u, b, h, hb, hp⟩
    obtain ⟨rfl, hcb⟩ := List.append_inj' h rfl
    obtain rfl : c = b := by simpa using hcb
    exact ⟨hb, hp⟩
  · rintro ⟨hc, hp⟩
    exact ⟨w, c, rfl, hc, hp⟩

theorem matches_append_percent_nil (p : List Char) :
    Matches (p ++ ['%']) [] ↔ Matches p [] := by
  rw [matches_append_percent]
  constructor
  · rintro ⟨u, v, huv, hp⟩
    rw [(List.append_eq_nil_iff.1 huv.symm).1] at hp
    exact hp
  · intro hp
    exact ⟨[], [], rfl, hp⟩

theorem not_matches_append_single_nil {a : Char} (ha : a ≠ '%') (p : List Char) :
    ¬ Matches (p ++ [a]) [] := by
  rw [matches_append_single ha]
  rintro ⟨u, c, h, -⟩
  simp at h

/-! ### Marked positions -/

section Positions

variable (P : List Char)

/-- The positions marked after reading `w`: the first `j` characters match `w`, or position `j`
holds a `%` that the text is inside. -/
def Reached (w : List Char) (j : Nat) : Prop :=
  j ≤ P.length ∧ (Matches (P.take j) w ∨ (P[j]? = some '%' ∧ Matches (P.take (j + 1)) w))

/-- The positions reached from those of `X` by passing over `%`s without reading. -/
inductive Skips (X : Nat → Prop) : Nat → Prop
  | here {j : Nat} : X j → Skips X j
  | next {j : Nat} : Skips X j → P[j]? = some '%' → Skips X (j + 1)

/-- Reading `c` moves position `i` to `j`: a `%` keeps its position, a `_` or `c` advances. -/
def Reads (c : Char) (i j : Nat) : Prop :=
  (P[i]? = some '%' ∧ j = i) ∨ ∃ a, P[i]? = some a ∧ a ≠ '%' ∧ (a = '_' ∨ a = c) ∧ j = i + 1

/-- The positions that reading `c` moves the positions of `A` to. -/
def Moves (A : Nat → Prop) (c : Char) (j : Nat) : Prop :=
  ∃ i, A i ∧ Reads P c i j

variable {P}

theorem take_succ_of_getElem? {j : Nat} {a : Char} (h : P[j]? = some a) :
    P.take (j + 1) = P.take j ++ [a] := by
  rw [List.take_add_one, h]
  rfl

theorem lt_of_getElem? {j : Nat} {a : Char} (h : P[j]? = some a) : j < P.length :=
  (List.getElem?_eq_some_iff.1 h).1

theorem skips_zero_iff {X : Nat → Prop} : Skips P X 0 ↔ X 0 := by
  constructor
  · intro h
    cases h with
    | here hx => exact hx
  · exact .here

theorem skips_succ_iff {X : Nat → Prop} {j : Nat} :
    Skips P X (j + 1) ↔ X (j + 1) ∨ (Skips P X j ∧ P[j]? = some '%') := by
  constructor
  · intro h
    cases h with
    | here hx => exact .inl hx
    | next h hp => exact .inr ⟨h, hp⟩
  · rintro (hx | ⟨h, hp⟩)
    · exact .here hx
    · exact .next h hp

/-- Every set that holds `X` and is closed under passing a `%` holds what `X` skips to. -/
theorem Skips.of_closed {X S : Nat → Prop} (hX : ∀ j, X j → S j)
    (hS : ∀ j, S j → P[j]? = some '%' → S (j + 1)) {j : Nat} (h : Skips P X j) : S j := by
  induction h with
  | here hx => exact hX _ hx
  | next _ hp ih => exact hS _ ih hp

theorem Skips.le {X : Nat → Prop} (hX : ∀ j, X j → j ≤ P.length) {j : Nat} (h : Skips P X j) :
    j ≤ P.length :=
  h.of_closed hX fun _ _ hp => lt_of_getElem? hp

theorem matches_take_succ_of_reached {w : List Char} {j : Nat} (h : Reached P w j)
    (hp : P[j]? = some '%') : Matches (P.take (j + 1)) w := by
  rcases h.2 with hm | ⟨-, hm⟩
  · rw [take_succ_of_getElem? hp, matches_append_percent]
    exact ⟨w, [], by simp, hm⟩
  · exact hm

theorem Reached.succ {w : List Char} {j : Nat} (h : Reached P w j) (hp : P[j]? = some '%') :
    Reached P w (j + 1) :=
  ⟨lt_of_getElem? hp, .inl (matches_take_succ_of_reached h hp)⟩

theorem reached_matches_of_ne {w : List Char} {j : Nat} {a : Char} (h : Reached P w j)
    (hj : P[j]? = some a) (ha : a ≠ '%') : Matches (P.take j) w := by
  rcases h.2 with hm | ⟨hp, -⟩
  · exact hm
  · exact absurd (Option.some.inj (hj.symm.trans hp)) ha

/-- Before any text is read, the marked positions are those the start skips to. -/
theorem reached_nil_iff (j : Nat) : Reached P [] j ↔ Skips P (· = 0) j := by
  -- a prefix that matches the empty text passes from the start over `%`s only
  have hstart : ∀ j, j ≤ P.length → Matches (P.take j) [] → Skips P (· = 0) j := by
    intro j
    induction j with
    | zero => exact fun _ _ => .here rfl
    | succ j ih =>
      intro hj hm
      have hget : P[j]? = some P[j] := List.getElem?_eq_getElem (by omega)
      rw [take_succ_of_getElem? hget] at hm
      by_cases ha : P[j] = '%'
      · rw [ha] at hm hget
        exact .next (ih (by omega) ((matches_append_percent_nil _).1 hm)) hget
      · exact absurd hm (not_matches_append_single_nil ha _)
  constructor
  · rintro ⟨hj, hm | ⟨hp, hm⟩⟩
    · exact hstart j hj hm
    · rw [take_succ_of_getElem? hp, matches_append_percent_nil] at hm
      exact hstart j hj hm
  · intro h
    refine h.of_closed ?_ fun j hj hp => hj.succ hp
    rintro _ rfl
    exact ⟨Nat.zero_le _, .inl (by simp)⟩

/-- Reading one more character marks what the moves from the marked positions skip to. -/
theorem reached_snoc_iff (w : List Char) (c : Char) (j : Nat) :
    Reached P (w ++ [c]) j ↔ Skips P (Moves P (Reached P w) c) j := by
  -- a prefix matching the longer text ends in a move, possibly followed by `%`s
  have hmatch : ∀ j, j ≤ P.length → Matches (P.take j) (w ++ [c]) →
      Skips P (Moves P (Reached P w) c) j := by
    intro j
    induction j with
    | zero => simp
    | succ j ih =>
      intro hj hm
      have hget : P[j]? = some P[j] := List.getElem?_eq_getElem (by omega)
      rw [take_succ_of_getElem? hget] at hm
      by_cases ha : P[j] = '%'
      · rw [ha] at hm hget
        rcases (matches_append_percent_snoc _ _ _).1 hm with hm' | hm'
        · exact .next (ih (by omega) hm') hget
        · have hr : Reached P w j := ⟨by omega, .inr ⟨hget, by rwa [take_succ_of_getElem? hget]⟩⟩
          exact .next (.here ⟨j, hr, .inl ⟨hget, rfl⟩⟩) hget
      · obtain ⟨hc, hm'⟩ := (matches_append_single_snoc ha _ _ _).1 hm
        exact .here ⟨j, ⟨by omega, .inl hm'⟩, .inr ⟨P[j], hget, ha, hc, rfl⟩⟩
  constructor
  · rintro ⟨hj, hm | ⟨hp, hm⟩⟩
    · exact hmatch j hj hm
    · rw [take_succ_of_getElem? hp] at hm
      rcases (matches_append_percent_snoc _ _ _).1 hm with hm' | hm'
      · exact hmatch j hj hm'
      · have hr : Reached P w j := ⟨hj, .inr ⟨hp, by rwa [take_succ_of_getElem? hp]⟩⟩
        exact .here ⟨j, hr, .inl ⟨hp, rfl⟩⟩
  · intro h
    refine h.of_closed ?_ fun j hj hp => hj.succ hp
    rintro j ⟨i, hr, ⟨hp, rfl⟩ | ⟨a, hget, ha, hc, rfl⟩⟩
    · -- a `%` takes the character in
      have hm := matches_take_succ_of_reached hr hp
      rw [take_succ_of_getElem? hp] at hm
      refine ⟨hr.1, .inr ⟨hp, ?_⟩⟩
      rw [take_succ_of_getElem? hp]
      exact (matches_append_percent_snoc _ _ _).2 (.inr hm)
    · -- a `_` or the character itself advances
      refine ⟨lt_of_getElem? hget, .inl ?_⟩
      rw [take_succ_of_getElem? hget]
      exact (matches_append_single_snoc ha _ _ _).2 ⟨hc, reached_matches_of_ne hr hget ha⟩

end Positions

/-! ### The automaton's arrays -/

/-- An array of the automaton's size marks exactly the positions of `S`. -/
def Marks (P : List Char) (a : Array Bool) (S : Nat → Prop) : Prop :=
  a.size = P.length + 1 ∧ ∀ j, a.getD j false = true ↔ S j

theorem Marks.congr {P : List Char} {a : Array Bool} {S T : Nat → Prop} (h : Marks P a S)
    (hST : ∀ j, S j ↔ T j) : Marks P a T :=
  ⟨h.1, fun j => (h.2 j).trans (hST j)⟩

theorem getD_setIfInBounds_true (a : Array Bool) {i : Nat} (hi : i < a.size) (j : Nat) :
    (a.setIfInBounds i true).getD j false = true ↔ j = i ∨ a.getD j false = true := by
  simp only [Array.getD_eq_getD_getElem?, Array.getElem?_setIfInBounds]
  by_cases h : i = j
  · subst h
    simp [hi]
  · simp [h, Ne.symm h]

theorem getD_replicate_false (m j : Nat) : (Array.replicate m false).getD j false = false := by
  simp only [Array.getD_eq_getD_getElem?, Array.getElem?_replicate]
  split <;> rfl

theorem getD_toArray_of_lt {P : List Char} {i : Nat} (hi : i < P.length) :
    P.toArray.getD i ' ' = P[i] := by
  simp [Array.getD_eq_getD_getElem?, hi]

/-- A fold over the positions marks `S k` after the first `k` of them, when each position's
step takes the marks of `S k` to those of `S (k + 1)`. -/
theorem marks_foldl_range {P : List Char} {f : Array Bool → Nat → Array Bool} {a : Array Bool}
    {S : Nat → Nat → Prop} (h0 : Marks P a (S 0))
    (hstep : ∀ k r, k < P.length → Marks P r (S k) → Marks P (f r k) (S (k + 1))) :
    Marks P ((List.range P.length).foldl f a) (S P.length) := by
  have hk : ∀ k, k ≤ P.length → Marks P ((List.range k).foldl f a) (S k) := by
    intro k
    induction k with
    | zero => exact fun _ => h0
    | succ k ih =>
      intro hk
      rw [List.range_succ, List.foldl_append, List.foldl_cons, List.foldl_nil]
      exact hstep k _ (by omega) (ih (by omega))
  exact hk P.length (Nat.le_refl _)

theorem close_marks {P : List Char} {a : Array Bool} {A : Nat → Prop} (h : Marks P a A)
    (hA : ∀ j, A j → j ≤ P.length) : Marks P (close P.toArray a) (Skips P A) := by
  unfold close
  rw [List.size_toArray]
  -- after the first `k` positions, the marks up to `k` are closed under passing a `%`
  refine (marks_foldl_range (S := fun k j => A j ∨ (j ≤ k ∧ Skips P A j)) ?_ ?_).congr ?_
  · refine h.congr fun j => ⟨.inl, ?_⟩
    rintro (hj | ⟨hj, hs⟩)
    · exact hj
    · rw [Nat.le_zero.1 hj] at hs ⊢
      exact skips_zero_iff.1 hs
  · rintro k r hk ⟨hsize, hmark⟩
    have hget : P[k]? = some P[k] := List.getElem?_eq_getElem hk
    have hk' : r.getD k false = true ↔ Skips P A k := by
      rw [hmark]
      exact ⟨fun h => h.elim .here And.right, fun h => .inr ⟨Nat.le_refl k, h⟩⟩
    rw [getD_toArray_of_lt hk]
    split
    · next hcond =>
      simp only [Bool.and_eq_true, beq_iff_eq] at hcond
      rw [hcond.2] at hget
      refine ⟨by rw [Array.size_setIfInBounds, hsize], fun j => ?_⟩
      rw [getD_setIfInBounds_true _ (by omega), hmark]
      constructor
      · rintro (rfl | hj | ⟨hj, hs⟩)
        · exact .inr ⟨Nat.le_refl _, .next (hk'.1 hcond.1) hget⟩
        · exact .inl hj
        · exact .inr ⟨by omega, hs⟩
      · rintro (hj | ⟨hj, hs⟩)
        · exact .inr (.inl hj)
        · rcases Nat.lt_or_eq_of_le hj with hj | rfl
          · exact .inr (.inr ⟨by omega, hs⟩)
          · exact .inl rfl
    · next hcond =>
      refine ⟨hsize, fun j => ?_⟩
      rw [hmark]
      constructor
      · rintro (hj | ⟨hj, hs⟩)
        · exact .inl hj
        · exact .inr ⟨by omega, hs⟩
      · rintro (hj | ⟨hj, hs⟩)
        · exact .inl hj
        · rcases Nat.lt_or_eq_of_le hj with hj | rfl
          · exact .inr ⟨by omega, hs⟩
          · rcases skips_succ_iff.1 hs with hx | ⟨hs', hp⟩
            · exact .inl hx
            · rw [hget] at hp
              simp [hk'.2 hs', Option.some.inj hp] at hcond
  · intro j
    refine ⟨?_, fun hs => .inr ⟨hs.le hA, hs⟩⟩
    rintro (hj | ⟨-, hs⟩)
    · exact .here hj
    · exact hs

theorem reads_lt {P : List Char} {c : Char} {i j : Nat} (h : Reads P c i j) : i < P.length := by
  rcases h with ⟨hp, -⟩ | ⟨a, hget, -⟩
  · exact lt_of_getElem? hp
  · exact lt_of_getElem? hget

theorem reads_le {P : List Char} {c : Char} {i j : Nat} (h : Reads P c i j) : j ≤ P.length := by
  have hi := reads_lt h
  rcases h with ⟨-, rfl⟩ | ⟨a, -, -, -, rfl⟩ <;> omega

theorem step_marks {P : List Char} {a : Array Bool} {A : Nat → Prop} (h : Marks P a A) (c : Char) :
    Marks P (step P.toArray a c) (Skips P (Moves P A c)) := by
  unfold step
  dsimp only
  refine close_marks ?_ fun j ⟨_, _, hr⟩ => reads_le hr
  rw [List.size_toArray]
  -- the moves from the first `k` positions
  refine (marks_foldl_range (S := fun k j => ∃ i < k, A i ∧ Reads P c i j) ?_ ?_).congr ?_
  · refine ⟨by simp, fun j => ?_⟩
    rw [getD_replicate_false]
    simp
  · rintro k r hk ⟨hsize, hmark⟩
    have hget : P[k]? = some P[k] := List.getElem?_eq_getElem hk
    -- the moves from position `k` alone
    have hreads : ∀ j, Reads P c k j ↔
        (P[k] = '%' ∧ j = k) ∨ (P[k] ≠ '%' ∧ (P[k] = '_' ∨ P[k] = c) ∧ j = k + 1) := by
      intro j
      simp [Reads, hget]
    have hnew : ∀ j, (∃ i < k + 1, A i ∧ Reads P c i j) ↔
        (∃ i < k, A i ∧ Reads P c i j) ∨ (A k ∧ Reads P c k j) := by
      intro j
      constructor
      · rintro ⟨i, hi, hAi, hr⟩
        rcases Nat.lt_or_eq_of_le (Nat.le_of_lt_succ hi) with hi | rfl
        · exact .inl ⟨i, hi, hAi, hr⟩
        · exact .inr ⟨hAi, hr⟩
      · rintro (⟨i, hi, hAi, hr⟩ | ⟨hAk, hr⟩)
        · exact ⟨i, by omega, hAi, hr⟩
        · exact ⟨k, by omega, hAk, hr⟩
    rw [getD_toArray_of_lt hk]
    refine Marks.congr ?_ fun j => (hnew j).symm
    by_cases hAk : A k
    · rw [if_pos ((h.2 k).2 hAk)]
      by_cases hp : P[k] = '%'
      · rw [if_pos (by simp [hp])]
        refine ⟨by rw [Array.size_setIfInBounds, hsize], fun j => ?_⟩
        dsimp only at hmark ⊢
        rw [getD_setIfInBounds_true _ (by omega), hmark, hreads]
        simp only [hp, true_and, hAk, ne_eq, not_true_eq_false, false_and, or_false]
        exact Or.comm
      · rw [if_neg (by simpa using hp)]
        by_cases hc : P[k] = '_' ∨ P[k] = c
        · rw [if_pos (by simpa using hc)]
          refine ⟨by rw [Array.size_setIfInBounds, hsize], fun j => ?_⟩
          dsimp only at hmark ⊢
          rw [getD_setIfInBounds_true _ (by omega), hmark, hreads]
          simp only [hp, false_and, false_or, hAk, true_and, ne_eq, not_false_eq_true, hc]
          exact Or.comm
        · rw [if_neg (by simpa using hc)]
          refine ⟨hsize, fun j => ?_⟩
          dsimp only at hmark ⊢
          rw [hmark, hreads]
          simp [hp, hc]
    · have ha : a.getD k false = false := by
        cases hv : a.getD k false
        · rfl
        · exact absurd ((h.2 k).1 hv) hAk
      rw [if_neg (by simp [ha])]
      refine ⟨hsize, fun j => ?_⟩
      dsimp only at hmark ⊢
      rw [hmark]
      simp [hAk]
  · intro j
    exact ⟨fun ⟨i, _, hAi, hr⟩ => ⟨i, hAi, hr⟩, fun ⟨i, hAi, hr⟩ => ⟨i, reads_lt hr, hAi, hr⟩⟩

/-! ### The automaton decides the SQL reading -/

theorem accepts_iff (pattern text : String) :
    accepts pattern text = true ↔ Matches pattern.toList text.toList := by
  have hstart : Marks pattern.toList
      (close pattern.toList.toArray
        ((Array.replicate (pattern.toList.toArray.size + 1) false).setIfInBounds 0 true))
      (Reached pattern.toList []) := by
    have hinit : Marks pattern.toList
        ((Array.replicate (pattern.toList.toArray.size + 1) false).setIfInBounds 0 true)
        (· = 0) := by
      refine ⟨by simp, fun j => ?_⟩
      rw [getD_setIfInBounds_true _ (by simp), getD_replicate_false]
      simp
    exact (close_marks hinit fun j hj => hj ▸ Nat.zero_le _).congr fun j =>
      (reached_nil_iff j).symm
  -- reading on from a prefix `pre` keeps the marks those of the prefix read so far
  have hrun : ∀ (w pre : List Char) (r : Array Bool), Marks pattern.toList r (Reached pattern.toList pre) →
      Marks pattern.toList (w.foldl (step pattern.toList.toArray) r)
        (Reached pattern.toList (pre ++ w)) := by
    intro w
    induction w with
    | nil =>
      intro pre r hr
      simpa using hr
    | cons c w ih =>
      intro pre r hr
      rw [List.foldl_cons, ← List.singleton_append, ← List.append_assoc]
      exact ih _ _ ((step_marks hr c).congr fun j => (reached_snoc_iff pre c j).symm)
  unfold accepts
  rw [((hrun text.toList [] _ hstart).2 _)]
  simp [Reached]

end CatalogQuery.Like
