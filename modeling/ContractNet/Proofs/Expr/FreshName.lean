import ContractNet.Expr.Variables
import ContractNet.Proofs.Expr.Pieces
import ContractNet.Proofs.Text.Basic
import Mathlib.Data.List.Nodup
import Mathlib.Data.List.Perm.Subperm
import Mathlib.Order.Nat

/-!
# Fresh names

`freshName` finds a name that an expression does not use: it tries more numbered names than there
are used ones, and numbered names are different.

* `freshName_notMem`: the expression does not use the name;
* `exists_piece_freshName`: a fresh name made from an identifier is an identifier;
* `Search` is the search through all numbered names, which no bound ends;
* `freshName_isLeast`: **the search ends, and at the least number.**  It looks at no more than one
  name more than there are identifiers, so that the bound of `freshName` is never reached.
-/

namespace ContractNet.Expr

/-- The names that `freshName` tries, in their order. -/
def candidates (base : Text) (n : Nat) : List Text :=
  base :: (base ++ "_") :: (List.range n).map fun i => base ++ Text.decimal (i + 1)

theorem nodup_numbered (base : Text) (n : Nat) :
    ((List.range n).map fun i => base ++ Text.decimal (i + 1)).Nodup := by
  refine List.Nodup.map (fun i j h => ?_) List.nodup_range
  have := Text.decimal_injective (List.append_cancel_left h)
  omega

/-- Of more numbered names than used names, one is not used. -/
theorem exists_numbered (base : Text) (used : List Text) :
    ∃ i ≤ used.length, base ++ Text.decimal (i + 1) ∉ used := by
  by_contra hall
  simp only [not_exists, not_and, not_not] at hall
  have hsub :
      ((List.range (used.length + 1)).map fun i => base ++ Text.decimal (i + 1)) ⊆ used := by
    intro name hname
    obtain ⟨i, hi, rfl⟩ := List.mem_map.1 hname
    exact hall i (Nat.lt_succ_iff.1 (List.mem_range.1 hi))
  have hlen := ((nodup_numbered base _).subperm hsub).length_le
  rw [List.length_map, List.length_range] at hlen
  omega

/-- Of more candidates than used names, one is not used. -/
theorem exists_candidate (base : Text) (used : List Text) :
    ∃ name ∈ candidates base (used.length + 1), name ∉ used := by
  obtain ⟨i, hi, hnot⟩ := exists_numbered base used
  refine ⟨_, List.mem_cons_of_mem _ (List.mem_cons_of_mem _ (List.mem_map.2 ⟨i, ?_, rfl⟩)), hnot⟩
  exact List.mem_range.2 (Nat.lt_succ_of_le hi)

/-- A fresh name is the first candidate that is not used. -/
theorem find?_candidates (e base : Text) :
    (candidates base ((usedNames e).length + 1)).find? (fun n => !(usedNames e).contains n) =
      some (freshName e base) := by
  obtain ⟨name, hmem, hnot⟩ := exists_candidate base (usedNames e)
  have hsome : ((candidates base ((usedNames e).length + 1)).find?
      fun n => !(usedNames e).contains n).isSome = true := by
    rw [List.find?_isSome]
    exact ⟨name, hmem, by simpa using hnot⟩
  obtain ⟨fresh, hfresh⟩ := Option.isSome_iff_exists.1 hsome
  rw [hfresh, freshName]
  exact congrArg some (by rw [← candidates, hfresh]; rfl)

/-- **A fresh name is not used.** -/
theorem freshName_notMem (e base : Text) : freshName e base ∉ usedNames e := by
  simpa using List.find?_some (find?_candidates e base)

/-- A candidate is its base with some bytes of identifiers after it. -/
theorem exists_suffix_of_mem_candidates {base name : Text} {n : Nat}
    (h : name ∈ candidates base n) :
    ∃ suffix, name = base ++ suffix ∧ ∀ b ∈ suffix, isIdentByte b = true := by
  simp only [candidates, List.mem_cons, List.mem_map] at h
  rcases h with rfl | rfl | ⟨i, -, rfl⟩
  · exact ⟨[], (List.append_nil _).symm, by simp⟩
  · exact ⟨"_", rfl, by decide +kernel⟩
  · refine ⟨Text.decimal (i + 1), rfl, fun b hb => ?_⟩
    simp [isIdentByte, Text.isDigit_of_mem_decimal hb]

/-- **A fresh name made from an identifier is an identifier.** -/
theorem exists_piece_freshName {p : Piece} (hp : p.IsIdent) (e : Text) :
    ∃ q : Piece, q.IsIdent ∧ q.bytes = freshName e p.bytes := by
  obtain ⟨suffix, hname, hsuffix⟩ :=
    exists_suffix_of_mem_candidates (List.mem_of_find?_eq_some (find?_candidates e p.bytes))
  refine ⟨⟨p.first, p.rest ++ suffix⟩, ⟨hp.start, ?_⟩, by rw [hname]; rfl⟩
  exact List.forall_mem_append.2 ⟨hp.rest, hsuffix⟩

/-! ### The search for a number -/

/-- The search through the names `base1`, `base2`, … from the `i`-th on: it looks at `k` of them and
stops at `name`, the first that is not used.  No bound ends it, so it need not stop. -/
inductive Search (used : List Text) (base : Text) : Nat → Nat → Text → Prop
  | stop {i : Nat} (h : base ++ Text.decimal i ∉ used) :
      Search used base i 1 (base ++ Text.decimal i)
  | next {i k : Nat} {name : Text} (h : base ++ Text.decimal i ∈ used)
      (hrest : Search used base (i + 1) k name) : Search used base i (k + 1) name

variable {used : List Text} {base : Text}

/-- The search goes on as long as names are used. -/
theorem search_of_forall_mem {i m : Nat} (hused : ∀ j < m, base ++ Text.decimal (i + j) ∈ used)
    (hfree : base ++ Text.decimal (i + m) ∉ used) :
    Search used base i (1 + m) (base ++ Text.decimal (i + m)) := by
  induction m generalizing i with
  | zero => exact .stop hfree
  | succ m ih =>
    have hshift : ∀ j, i + (j + 1) = i + 1 + j := fun j => by omega
    rw [hshift] at hfree ⊢
    refine .next (hused 0 m.succ_pos) (ih (fun j hj => ?_) hfree)
    rw [← hshift]
    exact hused (j + 1) (Nat.succ_lt_succ hj)

/-- **The search ends** at the least number that is free, which is at most one more than there are
used names. -/
theorem exists_search (used : List Text) (base : Text) :
    ∃ i ≤ used.length + 1, IsLeast {i | 1 ≤ i ∧ base ++ Text.decimal i ∉ used} i ∧
      Search used base 1 i (base ++ Text.decimal i) := by
  obtain ⟨m, hm, hfree⟩ := exists_numbered base used
  have hexists : ∃ i, 1 ≤ i ∧ base ++ Text.decimal i ∉ used := ⟨m + 1, Nat.le_add_left .., hfree⟩
  have hleast := Nat.isLeast_find hexists
  refine ⟨_, (hleast.2 ⟨Nat.le_add_left .., hfree⟩).trans (Nat.succ_le_succ hm), hleast, ?_⟩
  obtain ⟨k, hk⟩ := Nat.exists_eq_add_of_le hleast.1.1
  rw [hk] at hleast ⊢
  refine search_of_forall_mem (fun j hj => ?_) hleast.1.2
  by_contra hnot
  have := hleast.2 ⟨Nat.le_add_right .., hnot⟩
  omega

/-- The search finds what `find?` finds among enough numbered names. -/
theorem Search.find?_eq {i k : Nat} {name : Text} (h : Search used base i k name) {n : Nat}
    (hn : k ≤ n) :
    ((List.range' i n).map fun j => base ++ Text.decimal j).find? (fun m => !used.contains m) =
      some name := by
  induction h generalizing n with
  | stop hfree =>
    obtain ⟨n, rfl⟩ := Nat.exists_eq_add_of_le' hn
    simp [List.range'_succ, hfree]
  | next hused _ ih =>
    obtain ⟨n, rfl⟩ := Nat.exists_eq_add_of_le' (Nat.le_of_add_left_le hn)
    simpa [List.range'_succ, hused] using ih (Nat.le_of_succ_le_succ hn)

/-- The candidates are tried one after the other. -/
theorem Search.freshName_eq {e : Text} {i : Nat} {name : Text}
    (h : Search (usedNames e) base 1 i name) (hi : i ≤ (usedNames e).length + 1) :
    freshName e base =
      if base ∉ usedNames e then base
      else if base ++ "_" ∉ usedNames e then base ++ "_"
      else name := by
  have hfind := find?_candidates e base
  have hnumbered : ((List.range ((usedNames e).length + 1)).map fun i =>
      base ++ Text.decimal (i + 1)) =
      (List.range' 1 ((usedNames e).length + 1)).map fun j => base ++ Text.decimal j := by
    simp [List.range'_eq_map_range, Nat.add_comm]
  rw [candidates, hnumbered] at hfind
  by_cases hbase : base ∈ usedNames e
  · by_cases hline : base ++ "_" ∈ usedNames e
    · rw [List.find?_cons_of_neg (by simpa using hbase),
        List.find?_cons_of_neg (by simpa using hline), h.find?_eq hi] at hfind
      rw [if_neg (not_not.2 hbase), if_neg (not_not.2 hline), Option.some.inj hfind]
    · rw [if_neg (not_not.2 hbase), if_pos hline]
      simpa [hbase, hline] using hfind.symm
  · rw [if_pos hbase]
    simpa [hbase] using hfind.symm

theorem length_usedNames (e : Text) :
    (usedNames e).length = (tokenize e).countP (·.kind = .ident) := by
  rw [usedNames, List.length_map, List.countP_eq_length_filter]

/-- **The search ends, and at the least number.**  The search through all numbered names looks at no
more than one name more than there are identifiers.  A fresh name is none of these; it is the base
if that is free, else the base with a line, else the base with the least number that makes it free,
which is where the search stops. -/
theorem freshName_isLeast (e base : Text) :
    freshName e base ∉ usedNames e ∧
      ∃ i ≤ (tokenize e).countP (·.kind = .ident) + 1,
        IsLeast {i | 1 ≤ i ∧ base ++ Text.decimal i ∉ usedNames e} i ∧
          Search (usedNames e) base 1 i (base ++ Text.decimal i) ∧
          freshName e base =
            if base ∉ usedNames e then base
            else if base ++ "_" ∉ usedNames e then base ++ "_"
            else base ++ Text.decimal i := by
  obtain ⟨i, hi, hleast, hsearch⟩ := exists_search (usedNames e) base
  rw [← length_usedNames]
  exact ⟨freshName_notMem e base, i, hi, hleast, hsearch, hsearch.freshName_eq hi⟩

/-- Members and called names are used too, and the first gap between numbered names is taken. -/
example : freshName "x_ + x(m.x1) * x2 - x4" "x" = "x3" := by
  decide +kernel

end ContractNet.Expr
