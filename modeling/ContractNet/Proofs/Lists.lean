import Mathlib.Data.List.Basic
import Mathlib.Data.List.Nodup

/-!
# Lists without repetition

`List.eraseDups` keeps the first of several equal items: nothing is left twice (`nodup_eraseDups`),
and items that stay different under a map are kept alike before and after it (`eraseDups_map`).
-/

namespace ContractNet

theorem nodup_eraseDups {α : Type} [BEq α] [LawfulBEq α] (as : List α) : as.eraseDups.Nodup := by
  cases as with
  | nil => exact List.nodup_nil
  | cons a as =>
    rw [List.eraseDups_cons, List.nodup_cons, List.mem_eraseDups]
    exact ⟨by simp, nodup_eraseDups _⟩
termination_by as.length
decreasing_by exact Nat.lt_succ_of_le (List.length_filter_le _ _)

theorem eraseDups_map {α β : Type} [BEq α] [LawfulBEq α] [BEq β] [LawfulBEq β] {f : α → β}
    {as : List α} (hf : ∀ a ∈ as, ∀ a' ∈ as, f a = f a' → a = a') :
    (as.map f).eraseDups = as.eraseDups.map f := by
  match as, hf with
  | [], _ => rfl
  | a :: as, hf =>
    obtain ⟨ha, has⟩ := List.forall_mem_cons.1 hf
    have hsame : (as.map f).filter (fun b => !b == f a) = (as.filter fun a' => !a' == a).map f := by
      rw [List.filter_map]
      refine congrArg _ (List.filter_congr fun a' ha' => ?_)
      have : f a' = f a ↔ a' = a :=
        ⟨fun h => (ha a' (List.mem_cons_of_mem _ ha') h.symm).symm, fun h => h ▸ rfl⟩
      rw [Function.comp_apply, Bool.not_inj_iff, Bool.eq_iff_iff, beq_iff_eq, beq_iff_eq, this]
    rw [List.map_cons, List.eraseDups_cons, List.eraseDups_cons, List.map_cons, hsame,
      eraseDups_map fun b hb b' hb' => has b (List.mem_of_mem_filter hb) b'
        (List.mem_cons_of_mem _ (List.mem_of_mem_filter hb'))]
termination_by as.length
decreasing_by exact Nat.lt_succ_of_le (List.length_filter_le _ _)

end ContractNet
