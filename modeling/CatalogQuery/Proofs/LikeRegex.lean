import CatalogQuery.Catalog.Regex
import CatalogQuery.Proofs.LikeMatch

/-!
# The regular expression of a like pattern

`Regex.Reads` is the meaning of the regular expressions that `Regex.parse` reads: reading from a
point of the text, an atom takes one character that passes it, `a*` takes any run of such
characters, `^` holds only where nothing is to the left, `$` only where nothing is to the right,
and `.` takes a line break only after `(?s)`. A regular expression matches a text when it reads
some stretch of it (`Regex.IsMatch`).

`Like.toRegex_matches_like`: the text that `Like.toRegex` writes for a pattern is always read by
`Regex.parse`, and the regular expression it denotes matches exactly the texts that the pattern
matches as SQL reads it (`Like.Matches`), which are those `Like.accepts` accepts.
-/

namespace CatalogQuery

namespace Regex

/-- Whether a character passes an atom, with dot-all set or not. -/
def Atom.Accepts (dotAll : Bool) : Atom → Char → Prop
  | .lit c, d => d = c
  | .dot, d => dotAll = true ∨ d ≠ '\n'

/-- `Reads dotAll ns l w r`: the nodes `ns`, read from the point of the text that has `l` to its
left and `w ++ r` to its right, take exactly `w`. -/
def Reads (dotAll : Bool) : List Node → List Char → List Char → List Char → Prop
  | [], _, w, _ => w = []
  | .atom a :: ns, l, w, r =>
    ∃ c w', w = c :: w' ∧ a.Accepts dotAll c ∧ Reads dotAll ns (l ++ [c]) w' r
  | .star a :: ns, l, w, r =>
    ∃ u v, w = u ++ v ∧ (∀ c ∈ u, a.Accepts dotAll c) ∧ Reads dotAll ns (l ++ u) v r
  | .start :: ns, l, w, r => l = [] ∧ Reads dotAll ns l w r
  | .finish :: ns, l, w, r => w = [] ∧ r = [] ∧ Reads dotAll ns l w r
  | .setDotAll :: ns, l, w, r => Reads true ns l w r

/-- A regular expression matches a text when it reads some stretch of it, starting with dot-all
unset. -/
def IsMatch (ns : List Node) (t : List Char) : Prop :=
  ∃ l w r, t = l ++ w ++ r ∧ Reads false ns l w r

theorem ne_of_isMeta {c d : Char} (hc : isMeta c = false) (hd : isMeta d = true) : c ≠ d := by
  rintro rfl
  rw [hc] at hd
  exact Bool.false_ne_true hd

end Regex

namespace Like

open Regex

/-- What the regex text of a pattern character is read as. -/
def regexAtom (a : Char) : Atom := if a = '_' then .dot else .lit a

def regexNode (a : Char) : Node := if a = '%' then .star .dot else .atom (regexAtom a)

theorem regexAtom_accepts (a c : Char) : (regexAtom a).Accepts true c ↔ a = '_' ∨ a = c := by
  by_cases ha : a = '_'
  · simp [regexAtom, ha, Atom.Accepts]
  · simp [regexAtom, ha, Atom.Accepts, eq_comm]

/-! ### Reading the regex text -/

theorem toList_regexPiece (c : Char) :
    (regexPiece c).toList =
      if c = '%' then ['.', '*'] else if c = '_' then ['.']
      else if isMeta c then ['\\', c] else [c] := by
  by_cases hp : c = '%'
  · subst hp
    decide
  by_cases hu : c = '_'
  · subst hu
    decide
  by_cases hm : isMeta c
  · simp [regexPiece, escape, hp, hu, hm]
  · simp [regexPiece, escape, hp, hu, hm]

/-- A piece, followed by anything that does not start with `*`, is read as its node. -/
theorem parse_regexPiece (c : Char) {rest : List Char} (hrest : ∀ r, rest ≠ '*' :: r) :
    parse ((regexPiece c).toList ++ rest) = (parse rest).map (regexNode c :: ·) := by
  rw [toList_regexPiece]
  by_cases hp : c = '%'
  · subst hp
    simp [parse, regexNode]
  by_cases hu : c = '_'
  · subst hu
    simp [parse, regexNode, regexAtom]
  by_cases hm : isMeta c
  · simp [parse, regexNode, regexAtom, hp, hu, hm]
  · -- a plain character is none of the characters that start another form
    have hne : ∀ d, isMeta d = true → c ≠ d := fun d hd => ne_of_isMeta (by simpa using hm) hd
    simp [parse, regexNode, regexAtom, hp, hu, hm, hrest, hne '(' rfl, hne '^' rfl,
      hne '$' rfl, hne '.' rfl, hne '\\' rfl]

theorem ne_star_pieces (p : List Char) (r : List Char) :
    p.flatMap (fun c => (regexPiece c).toList) ++ ['$'] ≠ '*' :: r := by
  cases p with
  | nil => simp
  | cons c p =>
    -- a piece starts with a dot, a backslash or a plain character, and `*` is not plain
    have hstar : isMeta c = false → c ≠ '*' := fun hm => ne_of_isMeta hm rfl
    rw [List.flatMap_cons, toList_regexPiece]
    split <;> (try split) <;> (try split) <;> simp_all

theorem parse_pieces (p : List Char) :
    parse (p.flatMap (fun c => (regexPiece c).toList) ++ ['$']) =
      some (p.map regexNode ++ [.finish]) := by
  induction p with
  | nil => simp [parse]
  | cons c p ih =>
    rw [List.flatMap_cons, List.append_assoc, parse_regexPiece c (ne_star_pieces p), ih]
    rfl

theorem toList_toRegex (pattern : String) :
    (toRegex pattern).toList =
      ['(', '?', 's', ')', '^'] ++ pattern.toList.flatMap (fun c => (regexPiece c).toList) ++
        ['$'] := by
  have hloop : ∀ (cs : List Char) (re : String),
      (cs.foldl (fun re c => re ++ regexPiece c) re).toList =
        re.toList ++ cs.flatMap (fun c => (regexPiece c).toList) := by
    intro cs
    induction cs with
    | nil => simp
    | cons c cs ih =>
      intro re
      simp [ih, String.toList_append]
  have hhead : "(?s)^".toList = ['(', '?', 's', ')', '^'] := by decide
  rw [toRegex, String.toList_append, hloop, hhead]
  rfl

/-- The text of every pattern is read, as the nodes of its characters between `(?s)^` and `$`. -/
theorem parse_toRegex (pattern : String) :
    parse (toRegex pattern).toList =
      some (.setDotAll :: .start :: (pattern.toList.map regexNode ++ [.finish])) := by
  rw [toList_toRegex, List.append_assoc]
  simp only [List.cons_append, List.nil_append, parse, parse_pieces, Option.map_some]

example : parse (toRegex "a.b(%)").toList =
    some [.setDotAll, .start, .atom (.lit 'a'), .atom (.lit '.'), .atom (.lit 'b'),
      .atom (.lit '('), .star .dot, .atom (.lit ')'), .finish] := by
  decide

/-! ### Meaning of the regular expression -/

/-- With dot-all set, the nodes of a pattern read exactly a stretch the pattern matches. -/
theorem reads_regexNodes (p : List Char) (ns : List Node) (l w r : List Char) :
    Regex.Reads true (p.map regexNode ++ ns) l w r ↔
      ∃ u v, w = u ++ v ∧ Matches p u ∧ Regex.Reads true ns (l ++ u) v r := by
  induction p generalizing l w with
  | nil =>
    constructor
    · intro h
      exact ⟨[], w, rfl, (matches_nil _).2 rfl, by simpa using h⟩
    · rintro ⟨u, v, rfl, hu, hv⟩
      rw [(matches_nil u).1 hu] at hv ⊢
      simpa using hv
  | cons a p ih =>
    by_cases ha : a = '%'
    · -- `%` is `.*`, which with dot-all set takes any run of characters
      subst ha
      simp only [List.map_cons, List.cons_append, regexNode, if_pos, Regex.Reads, matches_percent]
      constructor
      · rintro ⟨u, v, rfl, -, hv⟩
        obtain ⟨u', v', rfl, hp, hns⟩ := (ih _ _).1 hv
        exact ⟨u ++ u', v', by simp, ⟨u, u', rfl, hp⟩, by simpa using hns⟩
      · rintro ⟨U, v, rfl, ⟨u, u', rfl, hp⟩, hns⟩
        refine ⟨u, u' ++ v, by simp, fun c _ => Or.inl rfl, (ih _ _).2 ?_⟩
        exact ⟨u', v, rfl, hp, by simpa using hns⟩
    · simp only [List.map_cons, List.cons_append, regexNode, if_neg ha, Regex.Reads,
        matches_cons_of_ne ha]
      constructor
      · rintro ⟨c, w', rfl, hc, hw'⟩
        obtain ⟨u', v', rfl, hp, hns⟩ := (ih _ _).1 hw'
        exact ⟨c :: u', v', rfl, ⟨c, u', rfl, (regexAtom_accepts a c).1 hc, hp⟩, by simpa using hns⟩
      · rintro ⟨U, v, rfl, ⟨c, u', rfl, hc, hp⟩, hns⟩
        refine ⟨c, u' ++ v, rfl, (regexAtom_accepts a c).2 hc, (ih _ _).2 ?_⟩
        exact ⟨u', v, rfl, hp, by simpa using hns⟩

/-- Anchored at both ends with dot-all set, the nodes of a pattern match exactly the texts the
pattern matches. -/
theorem isMatch_anchored_iff (p t : List Char) :
    IsMatch (.setDotAll :: .start :: (p.map regexNode ++ [.finish])) t ↔ Matches p t := by
  simp only [IsMatch, Regex.Reads, reads_regexNodes]
  constructor
  · rintro ⟨l, w, r, rfl, rfl, u, v, rfl, hp, rfl, rfl, -⟩
    simpa using hp
  · intro hp
    exact ⟨[], t, [], by simp, rfl, t, [], by simp, hp, rfl, rfl, rfl⟩

/-- The regular expression written for a like pattern is read as one, and it matches a text
exactly when the pattern does as SQL reads it, which is when the automaton accepts the text. -/
theorem toRegex_matches_like (pattern : String) :
    ∃ ns, parse (toRegex pattern).toList = some ns ∧
      ∀ text : String, (IsMatch ns text.toList ↔ Matches pattern.toList text.toList) ∧
        (accepts pattern text = true ↔ IsMatch ns text.toList) := by
  refine ⟨_, parse_toRegex pattern, fun text => ?_⟩
  have hmatch := isMatch_anchored_iff pattern.toList text.toList
  exact ⟨hmatch, (accepts_iff pattern text).trans hmatch.symm⟩

end Like

end CatalogQuery
