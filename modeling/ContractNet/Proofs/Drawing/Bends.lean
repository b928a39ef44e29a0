import ContractNet.Drawing.Svg
import Mathlib.Algebra.Order.Field.Basic
import Mathlib.Algebra.Order.Field.Rat
import Mathlib.Data.List.Basic
import Mathlib.Tactic.FieldSimp
import Mathlib.Tactic.NormNum
import Mathlib.Tactic.Positivity
import Mathlib.Tactic.Ring

/-!
# How arcs are bent apart

The arcs from one node to another are a group, and the bend of an arc depends on its number in the
group and on whether there are arcs that lead back.  Without those the numbers 0, 1, 2, … are bent
by 0, 1, -1, 2, -2, … steps, else by 1, 2, 3, …

A positive bend is to one side of the straight line, as seen from the source.  An arc and one that
leads back see that line from its two ends, so with positive bends they run on its two sides.  This
is proved in exact arithmetic, for every ordered field in place of the floating-point numbers.

* `curve_eq_of_getElem?_arcGroup`: the bend of an arc, by its number in its group;
* `swing_injective`: no two of the numbers are bent alike;
* `side_bent`: on which side of the straight line a bent one runs;
* `curve_apart`: arcs in one direction have different bends, arcs in opposite directions positive
  ones, and these run on opposite sides.
-/

namespace ContractNet.Drawing

/-! ### Groups -/

/-- The arcs with a key, by their indices. -/
def arcGroup (arcs : List Arc) (key : Text) : List Nat :=
  arcs.findIdxs fun b => pairKey b.source b.target = key

/-- The bend of an arc without others that lead back, by its number in its group. -/
def swing (k : Nat) : Int :=
  if k % 2 = 0 then -(((k + 1) / 2 : Nat) : Int) else ((k + 1) / 2 : Nat)

theorem swing_injective : Function.Injective swing := by
  intro k l h
  simp only [swing] at h
  split_ifs at h <;> omega

variable {arcs : List Arc} {i j k : Nat} {a b : Arc}

theorem arcGroup_eq_nil_iff {key : Text} :
    arcGroup arcs key = [] ↔ arcs.any (fun b => pairKey b.source b.target = key) = false := by
  rw [arcGroup, List.findIdxs_eq_nil_iff, List.any_eq_false]
  simp only [Bool.not_eq_true]

theorem nodup_arcGroup (arcs : List Arc) (key : Text) : (arcGroup arcs key).Nodup :=
  List.nodup_findIdxs

/-- What satisfies a condition is, among all that does, where as many as before it come first. -/
theorem getElem?_findIdxs {α : Type} {p : α → Bool} {as : List α} {x : α} (hx : as[i]? = some x)
    (hp : p x = true) : (as.findIdxs p)[(as.take i).countP p]? = some i := by
  obtain ⟨hi, rfl⟩ := List.getElem?_eq_some_iff.1 hx
  have hsplit : as.take i ++ as[i] :: as.drop (i + 1) = as := by
    rw [← List.drop_eq_getElem_cons hi, List.take_append_drop]
  have hindices : as.findIdxs p =
      (as.take i).findIdxs p ++ i :: (as.drop (i + 1)).findIdxs p (i + 1) := by
    conv_lhs => rw [← hsplit]
    rw [List.findIdxs_append, List.findIdxs_cons, if_pos hp, List.length_take_of_le hi.le,
      Nat.zero_add]
  rw [hindices, ← List.length_findIdxs, List.getElem?_append_right (Nat.le_refl _), Nat.sub_self]
  rfl

/-- The number of an arc in its group is that of the arcs with its key before it. -/
theorem getElem?_arcGroup (ha : arcs[i]? = some a) :
    (arcGroup arcs (pairKey a.source a.target))[(arcs.take i).countP fun b =>
      pairKey b.source b.target = pairKey a.source a.target]? = some i :=
  getElem?_findIdxs ha (decide_eq_true rfl)

/-- **The bend of an arc** by its number in its group. -/
theorem curve_eq_of_getElem?_arcGroup (ha : arcs[i]? = some a)
    (hk : (arcGroup arcs (pairKey a.source a.target))[k]? = some i) :
    curve arcs i = if arcGroup arcs (pairKey a.target a.source) = [] then swing k else 1 + k := by
  have hnumber : (arcs.take i).countP (fun b =>
      pairKey b.source b.target = pairKey a.source a.target) = k := by
    have hbefore := getElem?_arcGroup ha
    obtain ⟨hlt, -⟩ := List.getElem?_eq_some_iff.1 hbefore
    exact (List.getElem?_inj hlt (nodup_arcGroup _ _)).1 (hbefore.trans hk.symm)
  rw [curve, ha]
  simp only [hnumber]
  by_cases hback : arcGroup arcs (pairKey a.target a.source) = []
  · rw [if_pos hback, arcGroup_eq_nil_iff.1 hback, swing]
    simp
  · rw [if_neg hback, Bool.of_not_eq_false (mt arcGroup_eq_nil_iff.2 hback)]
    simp

/-- Arcs one way only, between others that lead forth and back. -/
example : (List.range 6).map (curve [⟨"1", "b", "u", "x"⟩, ⟨"2", "a", "t", "y"⟩,
    ⟨"3", "b", "u", "x"⟩, ⟨"4", "t", "a", "z"⟩, ⟨"5", "a", "t", "y"⟩, ⟨"6", "b", "u", "x"⟩]) =
      [0, 1, 1, 1, 2, -1] := by
  decide

/-- Arcs from one node to another have different bends. -/
theorem curve_ne_of_parallel (ha : arcs[i]? = some a) (hb : arcs[j]? = some b) (hij : i ≠ j)
    (hsource : a.source = b.source) (htarget : a.target = b.target) :
    curve arcs i ≠ curve arcs j := by
  obtain ⟨k, hk⟩ : ∃ k, (arcGroup arcs (pairKey a.source a.target))[k]? = some i :=
    ⟨_, getElem?_arcGroup ha⟩
  obtain ⟨l, hl⟩ : ∃ l, (arcGroup arcs (pairKey b.source b.target))[l]? = some j :=
    ⟨_, getElem?_arcGroup hb⟩
  rw [curve_eq_of_getElem?_arcGroup ha hk, curve_eq_of_getElem?_arcGroup hb hl]
  rw [← hsource, ← htarget] at hl ⊢
  have hkl : k ≠ l := by
    rintro rfl
    exact hij (Option.some.inj (hk.symm.trans hl))
  split_ifs
  · exact swing_injective.ne hkl
  · omega

/-- An arc is bent forward if there are others that lead back. -/
theorem curve_pos_of_back (ha : arcs[i]? = some a) (hb : b ∈ arcs) (hsource : b.source = a.target)
    (htarget : b.target = a.source) : 0 < curve arcs i := by
  have hback : arcGroup arcs (pairKey a.target a.source) ≠ [] := by
    intro hnil
    have hnone := List.any_eq_false.1 (arcGroup_eq_nil_iff.1 hnil) b hb
    rw [hsource, htarget] at hnone
    exact hnone (decide_eq_true rfl)
  rw [curve_eq_of_getElem?_arcGroup ha (getElem?_arcGroup ha), if_neg hback]
  omega

/-! ### Sides -/

section Sides

variable {K : Type} [Field K]

/-- On which side of the line from `s` to `t` a point is, by the sign; it is zero on the line. -/
def side (s t p : K × K) : K := (t.1 - s.1) * (p.2 - s.2) - (t.2 - s.2) * (p.1 - s.1)

theorem side_swap (s t p : K × K) : side t s p = -side s t p := by
  simp only [side]
  ring

/-- The point at `τ` of the curve from the start of a course to its end, with the point aside of its
middle as control point; `τ` is 0 at the start and 1 at the end. -/
def Course.bent (c : Course K) (offset τ : K) : K × K :=
  ((1 - τ) ^ 2 * c.start.1 + 2 * τ * (1 - τ) * (c.aside offset).1 + τ ^ 2 * c.stop.1,
    (1 - τ) ^ 2 * c.start.2 + 2 * τ * (1 - τ) * (c.aside offset).2 + τ ^ 2 * c.stop.2)

/-- The square of the distance of two points. -/
def distSq (s t : K × K) : K := (t.1 - s.1) ^ 2 + (t.2 - s.2) ^ 2

variable [LinearOrder K] [IsStrictOrderedRing K] {s t : K × K} {dist offset τ : K}

/-- **A bent line** leaves the straight one to the side that its offset tells, wherever its ends are
on that line. -/
theorem side_bent (hdist : dist ≠ 0) (before after : K) :
    side s t ((Course.between s t dist before after).bent offset τ) =
      2 * τ * (1 - τ) * offset * (distSq s t / dist) := by
  simp only [side, Course.bent, Course.aside, Course.middle, Course.between, distSq]
  field_simp
  ring

theorem distSq_pos (hst : s ≠ t) : 0 < distSq s t := by
  rw [distSq]
  rcases not_and_or.1 (mt Prod.ext_iff.2 hst) with hx | hy
  · have hne : t.1 - s.1 ≠ 0 := sub_ne_zero.2 (Ne.symm hx)
    positivity
  · have hne : t.2 - s.2 ≠ 0 := sub_ne_zero.2 (Ne.symm hy)
    positivity

theorem side_bent_pos (hst : s ≠ t) (hdist : 0 < dist) (hoffset : 0 < offset) (hstart : 0 < τ)
    (hstop : τ < 1) (before after : K) :
    0 < side s t ((Course.between s t dist before after).bent offset τ) := by
  have hrest : 0 < 1 - τ := sub_pos.2 hstop
  have hsq := distSq_pos hst
  rw [side_bent hdist.ne']
  positivity

/-- Seen from the other end, a positive offset is to the other side. -/
theorem side_bent_neg (hst : s ≠ t) (hdist : 0 < dist) (hoffset : 0 < offset) (hstart : 0 < τ)
    (hstop : τ < 1) (before after : K) :
    side s t ((Course.between t s dist before after).bent offset τ) < 0 := by
  rw [side_swap t s]
  exact neg_neg_of_pos (side_bent_pos hst.symm hdist hoffset hstart hstop before after)

end Sides

/-! ### Arcs between the same nodes -/

/-- **Parallel arcs are drawn apart.**  Two arcs of a list that lead from one node to another have
different offsets, however many there are.  If one leads back, the offsets of both are positive; so
wherever the two nodes are, the lines of the arcs run on opposite sides of the straight line between
the nodes, at all their points but the ends. -/
theorem curve_apart {K : Type} [Field K] [LinearOrder K] [IsStrictOrderedRing K]
    (ha : arcs[i]? = some a) (hb : arcs[j]? = some b) :
    (i ≠ j → a.source = b.source → a.target = b.target → 30 * curve arcs i ≠ 30 * curve arcs j) ∧
      (b.source = a.target → b.target = a.source →
        0 < 30 * curve arcs i ∧ 0 < 30 * curve arcs j ∧
        ∀ (s t : K × K) (dist dist' before before' after after' τ : K), s ≠ t → 0 < dist →
          0 < dist' → 0 < τ → τ < 1 →
          0 < side s t ((Course.between s t dist before after).bent
            ((30 * curve arcs i : Int) : K) τ) ∧
          side s t ((Course.between t s dist' before' after').bent
            ((30 * curve arcs j : Int) : K) τ) < 0) := by
  constructor
  · intro hij hsource htarget hequal
    exact curve_ne_of_parallel ha hb hij hsource htarget
      (Int.eq_of_mul_eq_mul_left (by decide) hequal)
  · intro hsource htarget
    have hi : 0 < 30 * curve arcs i := Int.mul_pos (by decide)
      (curve_pos_of_back ha (List.mem_of_getElem? hb) hsource htarget)
    have hj : 0 < 30 * curve arcs j := Int.mul_pos (by decide)
      (curve_pos_of_back hb (List.mem_of_getElem? ha) htarget.symm hsource.symm)
    refine ⟨hi, hj, fun s t dist dist' before before' after after' τ hst hdist hdist' h0 h1 => ?_⟩
    exact ⟨side_bent_pos hst hdist (Int.cast_pos.2 hi) h0 h1 before after,
      side_bent_neg hst hdist' (Int.cast_pos.2 hj) h0 h1 before' after'⟩

/-- Two arcs with one that leads back between them, and three in one direction. -/
def strands : List Arc :=
  [⟨"1", "a", "t", "x"⟩, ⟨"2", "t", "a", "x + 1"⟩, ⟨"3", "a", "t", "y"⟩, ⟨"4", "b", "u", "z"⟩,
    ⟨"5", "b", "u", "z"⟩, ⟨"6", "b", "u", "w"⟩]

theorem curve_apart_strands :
    (strands[4]? = some ⟨"5", "b", "u", "z"⟩ ∧ strands[5]? = some ⟨"6", "b", "u", "w"⟩ ∧
      30 * curve strands 4 ≠ 30 * curve strands 5) ∧
    strands[2]? = some ⟨"3", "a", "t", "y"⟩ ∧ strands[1]? = some ⟨"2", "t", "a", "x + 1"⟩ ∧
      0 < 30 * curve strands 2 ∧ 0 < 30 * curve strands 1 ∧
      0 < side ((60, 180) : ℚ × ℚ) (170, 60) ((Course.between (60, 180) (170, 60) 163 18 24).bent
        ((30 * curve strands 2 : Int) : ℚ) (1 / 2)) ∧
      side ((60, 180) : ℚ × ℚ) (170, 60) ((Course.between (170, 60) (60, 180) 163 17 25).bent
        ((30 * curve strands 1 : Int) : ℚ) (1 / 3)) < 0 := by
  have hfifth : strands[4]? = some ⟨"5", "b", "u", "z"⟩ := rfl
  have hsixth : strands[5]? = some ⟨"6", "b", "u", "w"⟩ := rfl
  have hread : strands[2]? = some ⟨"3", "a", "t", "y"⟩ := rfl
  have hwrite : strands[1]? = some ⟨"2", "t", "a", "x + 1"⟩ := rfl
  have hparallel := (curve_apart (K := ℚ) hfifth hsixth).1 (by decide) rfl rfl
  obtain ⟨hforth, hback, hsides⟩ := (curve_apart (K := ℚ) hread hwrite).2 rfl rfl
  refine ⟨⟨hfifth, hsixth, hparallel⟩, hread, hwrite, hforth, hback, ?_, ?_⟩
  · exact (hsides (60, 180) (170, 60) 163 163 18 17 24 25 (1 / 2) (by decide) (by norm_num)
      (by norm_num) (by norm_num) (by norm_num)).1
  · exact (hsides (60, 180) (170, 60) 163 163 18 17 24 25 (1 / 3) (by decide) (by norm_num)
      (by norm_num) (by norm_num) (by norm_num)).2

end ContractNet.Drawing
