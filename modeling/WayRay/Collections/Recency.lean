import Mathlib.Data.List.Dedup
import Mathlib.Data.List.Perm.Basic

/-!
# Lists ordered by recency

A list whose elements are moved to its end, or taken out, one operation after another.  Afterwards
the elements without an operation come first, as they were; the others follow in the order of their
last operations (`touchAll_eq`).  So the operations leave the order of the elements that stay as it
was exactly if those were ordered by `staleness` already (`order_kept_iff`).
-/

namespace Recency

universe u

variable {α : Type u} [DecidableEq α]

/-- Move an element to the end of a list, or take it out. -/
def touch (l : List α) (op : α × Bool) : List α :=
  if op.2 then l.erase op.1 ++ [op.1] else l.erase op.1

def touchAll (l : List α) (ops : List (α × Bool)) : List α := ops.foldl touch l

/-- The elements that operations name. -/
def named (ops : List (α × Bool)) : List α := ops.map Prod.fst

/-- Whether the last operation on an element leaves it in the list, if there is one. -/
def stays (ops : List (α × Bool)) (a : α) : Bool :=
  (((ops.filter fun op => op.1 = a).getLast?).map Prod.snd).getD true

/-- The number of operations after the last one on an element; all of them if there is none. -/
def staleness (ops : List (α × Bool)) (a : α) : ℕ := (named ops).reverse.idxOf a

/-! ### The last operations -/

section Last

variable {ops : List (α × Bool)} {a b : α} {kept : Bool}

theorem filter_eq_nil_of_notMem (h : a ∉ named ops) : (ops.filter fun op => op.1 = a) = [] := by
  rw [List.filter_eq_nil_iff]
  exact fun op hop heq => h (List.mem_map.mpr ⟨op, hop, of_decide_eq_true heq⟩)

theorem stays_of_notMem (h : a ∉ named ops) : stays ops a = true := by
  rw [stays, filter_eq_nil_of_notMem h]
  rfl

/-- An operation before others on its element does not count. -/
theorem stays_cons_of_mem (h : a ∈ named ops) : stays ((b, kept) :: ops) a = stays ops a := by
  obtain ⟨op, hop, rfl⟩ := List.mem_map.mp h
  have hne : (ops.filter fun op' => op'.1 = op.1) ≠ [] :=
    List.ne_nil_of_mem (List.mem_filter.mpr ⟨hop, decide_eq_true rfl⟩)
  unfold stays
  rw [List.filter_cons]
  split_ifs
  · rw [List.getLast?_cons, List.getLast?_eq_some_getLast hne]
    rfl
  · rfl

theorem stays_cons_self (h : a ∉ named ops) : stays ((a, kept) :: ops) a = kept := by
  rw [stays, List.filter_cons_of_pos (by simp), filter_eq_nil_of_notMem h]
  rfl

end Last

/-! ### The list afterwards -/

theorem nodup_touch {l : List α} (hl : l.Nodup) (op : α × Bool) : (touch l op).Nodup := by
  unfold touch
  split_ifs
  · exact List.nodup_append_comm.mp (List.nodup_cons.mpr ⟨hl.not_mem_erase, hl.erase _⟩)
  · exact hl.erase _

theorem nodup_touchAll {l : List α} (ops : List (α × Bool)) (hl : l.Nodup) :
    (touchAll l ops).Nodup := by
  induction ops generalizing l with
  | nil => exact hl
  | cons op ops ih => exact ih (nodup_touch hl op)

/-- Elements without an operation come first, the others follow by their last operations. -/
theorem touchAll_eq {l : List α} (hl : l.Nodup) (ops : List (α × Bool)) :
    touchAll l ops = (l.filter fun a => a ∉ named ops) ++ (named ops).dedup.filter (stays ops) := by
  induction ops generalizing l with
  | nil => simp [touchAll, named]
  | cons op ops ih =>
    obtain ⟨a, kept⟩ := op
    have hothers : ((l.erase a).filter fun b => b ∉ named ops) =
        l.filter fun b => b ∉ named ((a, kept) :: ops) := by
      rw [hl.erase_eq_filter, List.filter_filter]
      refine List.filter_congr fun b _ => ?_
      by_cases hb : b = a <;> simp [named, hb]
    have hdedup : ∀ bs : List α, (∀ b ∈ bs, b ∈ named ops) →
        bs.filter (stays ((a, kept) :: ops)) = bs.filter (stays ops) :=
      fun bs hbs => List.filter_congr fun b hb => stays_cons_of_mem (hbs b hb)
    have hstep : touchAll l ((a, kept) :: ops) = touchAll (touch l (a, kept)) ops := rfl
    rw [hstep, ih (nodup_touch hl _)]
    by_cases ha : a ∈ named ops
    · -- another operation on the element follows
      have hfirst : ((touch l (a, kept)).filter fun b => b ∉ named ops) =
          (l.erase a).filter fun b => b ∉ named ops := by
        unfold touch
        split_ifs
        · simp [ha]
        · rfl
      have hnamed : (named ((a, kept) :: ops)).dedup = (named ops).dedup :=
        List.dedup_cons_of_mem ha
      rw [hfirst, hothers, hnamed, hdedup _ fun b hb => List.mem_dedup.mp hb]
    · have hfirst : ((touch l (a, kept)).filter fun b => b ∉ named ops) =
          ((l.erase a).filter fun b => b ∉ named ops) ++ if kept then [a] else [] := by
        unfold touch
        cases kept <;> simp [ha]
      have hnamed : (named ((a, kept) :: ops)).dedup = a :: (named ops).dedup :=
        List.dedup_cons_of_notMem ha
      rw [hfirst, hothers, hnamed, List.filter_cons, stays_cons_self ha,
        hdedup _ fun b hb => List.mem_dedup.mp hb, List.append_assoc]
      cases kept <;> rfl

variable {l : List α} (ops : List (α × Bool))

/-- An element of the list stays unless its last operation takes it out. -/
theorem mem_touchAll (hl : l.Nodup) {a : α} (ha : a ∈ l) :
    a ∈ touchAll l ops ↔ stays ops a = true := by
  rw [touchAll_eq hl, List.mem_append, List.mem_filter, List.mem_filter, List.mem_dedup]
  by_cases hnamed : a ∈ named ops
  · simp [hnamed]
  · simp [hnamed, ha, stays_of_notMem hnamed]

theorem filter_mem_touchAll (hl : l.Nodup) :
    (l.filter fun a => a ∈ touchAll l ops) = l.filter (stays ops) := by
  refine List.filter_congr fun a ha => ?_
  rw [Bool.eq_iff_iff, decide_eq_true_iff, mem_touchAll ops hl ha]

/-- Moving distinct elements to the end puts them there in this order. -/
theorem touchAll_map_true (hl : l.Nodup) {as : List α} (has : as.Nodup) :
    touchAll l (as.map fun a => (a, true)) = (l.filter fun a => a ∉ as) ++ as := by
  have hnamed : named (as.map fun a => (a, true)) = as := by
    rw [named, List.map_map]
    exact List.map_id as
  have hstays : ∀ a ∈ as, stays (as.map fun a => (a, true)) a = true := by
    intro a _
    unfold stays
    cases hlast : ((as.map fun a => (a, true)).filter fun op => op.1 = a).getLast? with
    | none => rfl
    | some op =>
      have hop := List.mem_of_mem_filter (List.mem_of_getLast? hlast)
      obtain ⟨b, -, rfl⟩ := List.mem_map.mp hop
      rfl
  rw [touchAll_eq hl, hnamed, has.dedup, List.filter_eq_self.mpr hstays]

/-! ### Staleness -/

/-- Elements without an operation are the stalest. -/
theorem staleness_of_notMem {a : α} (h : a ∉ named ops) :
    staleness ops a = (named ops).length := by
  rw [staleness, List.idxOf_eq_length (by simpa using h), List.length_reverse]

theorem staleness_lt_of_mem {a : α} (h : a ∈ named ops) :
    staleness ops a < (named ops).length := by
  rw [staleness, ← List.length_reverse]
  exact List.idxOf_lt_length_iff.mpr (List.mem_reverse.mpr h)

/-- No two elements with operations are equally stale. -/
theorem eq_of_staleness_eq {a b : α} (ha : a ∈ named ops)
    (h : staleness ops a = staleness ops b) : a = b :=
  (List.idxOf_inj (List.mem_reverse.mpr ha)).mp h

theorem staleness_cons_of_mem {op : α × Bool} {a : α} (h : a ∈ named ops) :
    staleness (op :: ops) a = staleness ops a := by
  have hnamed : named (op :: ops) = op.1 :: named ops := rfl
  rw [staleness, hnamed, List.reverse_cons]
  exact List.idxOf_append_of_mem (List.mem_reverse.mpr h)

/-- The elements with operations, by their last ones: the stalest come first. -/
theorem pairwise_dedup :
    (named ops).dedup.Pairwise fun a b => staleness ops b < staleness ops a := by
  induction ops with
  | nil => exact List.Pairwise.nil
  | cons op ops ih =>
    have hrest : (named ops).dedup.Pairwise fun a b =>
        staleness (op :: ops) b < staleness (op :: ops) a := by
      refine ih.imp_of_mem fun ha hb hlt => ?_
      rwa [staleness_cons_of_mem ops (List.mem_dedup.mp ha),
        staleness_cons_of_mem ops (List.mem_dedup.mp hb)]
    by_cases hop : op.1 ∈ named ops
    · have hnamed : (named (op :: ops)).dedup = (named ops).dedup := List.dedup_cons_of_mem hop
      rw [hnamed]
      exact hrest
    · have hnamed : (named (op :: ops)).dedup = op.1 :: (named ops).dedup :=
        List.dedup_cons_of_notMem hop
      rw [hnamed]
      refine List.pairwise_cons.mpr ⟨fun b hb => ?_, hrest⟩
      have hb := List.mem_dedup.mp hb
      have hlast : staleness (op :: ops) op.1 = (named ops).length := by
        have hnamed' : named (op :: ops) = op.1 :: named ops := rfl
        rw [staleness, hnamed', List.reverse_cons,
          List.idxOf_append_of_notMem (by simpa using hop), List.idxOf_cons_self, Nat.add_zero,
          List.length_reverse]
      rw [staleness_cons_of_mem ops hb, hlast]
      exact staleness_lt_of_mem ops hb

theorem staleness_le (a : α) : staleness ops a ≤ (named ops).length := by
  rw [staleness, ← List.length_reverse]
  exact List.idxOf_le_length

/-- Afterwards the list is ordered by staleness. -/
theorem pairwise_touchAll (hl : l.Nodup) :
    (touchAll l ops).Pairwise fun a b => staleness ops b ≤ staleness ops a := by
  rw [touchAll_eq hl, List.pairwise_append]
  have hfirst : ∀ a ∈ l.filter (fun a => a ∉ named ops), ∀ b,
      staleness ops b ≤ staleness ops a := by
    intro a ha b
    rw [staleness_of_notMem ops (of_decide_eq_true (List.mem_filter.mp ha).2)]
    exact staleness_le ops b
  refine ⟨List.pairwise_of_forall_mem_list fun a ha b _ => hfirst a ha b, ?_,
    fun a ha b _ => hfirst a ha b⟩
  exact ((pairwise_dedup ops).imp Nat.le_of_lt).sublist List.filter_sublist

/-- A list ordered by staleness begins with the elements without an operation. -/
theorem eq_filter_append_filter {m : List α}
    (h : m.Pairwise fun a b => staleness ops b ≤ staleness ops a) :
    m = (m.filter fun a => a ∉ named ops) ++ m.filter fun a => a ∈ named ops := by
  induction m with
  | nil => rfl
  | cons a m ih =>
    obtain ⟨ha, hm⟩ := List.pairwise_cons.mp h
    by_cases hnamed : a ∈ named ops
    · have hall : ∀ b ∈ m, b ∈ named ops := by
        intro b hb
        by_contra hnone
        have hle := ha b hb
        rw [staleness_of_notMem ops hnone] at hle
        exact absurd (staleness_lt_of_mem ops hnamed) (Nat.not_lt.mpr hle)
      have hnone : (m.filter fun a => a ∉ named ops) = [] :=
        List.filter_eq_nil_iff.mpr fun b hb => by simpa using hall b hb
      have hsome : (m.filter fun a => a ∈ named ops) = m :=
        List.filter_eq_self.mpr fun b hb => decide_eq_true (hall b hb)
      rw [List.filter_cons_of_neg (by simpa using hnamed), List.filter_cons_of_pos (by simpa),
        hnone, hsome, List.nil_append]
    · rw [List.filter_cons_of_pos (by simpa using hnamed),
        List.filter_cons_of_neg (by simpa using hnamed), List.cons_append, ← ih hm]

/-- **The elements that stay keep their order** exactly if they were ordered by staleness. -/
theorem order_kept_iff (hl : l.Nodup) :
    ((touchAll l ops).filter fun a => a ∈ l) = l.filter (fun a => a ∈ touchAll l ops) ↔
      (l.filter (stays ops)).Pairwise fun a b => staleness ops b ≤ staleness ops a := by
  rw [filter_mem_touchAll ops hl]
  have hsorted := (pairwise_touchAll ops hl).sublist
    (List.filter_sublist (p := fun a => decide (a ∈ l)))
  refine ⟨fun heq => heq ▸ hsorted, fun h => ?_⟩
  -- those without an operation are the same ...
  have hfirst : (((touchAll l ops).filter fun a => a ∈ l).filter fun a => a ∉ named ops) =
      (l.filter (stays ops)).filter fun a => a ∉ named ops := by
    have hnone : (((named ops).dedup.filter (stays ops)).filter fun a => a ∉ named ops) = [] := by
      refine List.filter_eq_nil_iff.mpr fun a ha => ?_
      have hnamed := List.mem_dedup.mp (List.mem_of_mem_filter ha)
      simpa using hnamed
    rw [List.filter_comm, touchAll_eq hl, List.filter_append, hnone, List.append_nil,
      List.filter_filter, List.filter_filter, List.filter_filter]
    refine List.filter_congr fun a ha => ?_
    by_cases hnamed : a ∈ named ops
    · simp [hnamed]
    · simp [hnamed, ha, stays_of_notMem hnamed]
  -- ... and the others are in the only order that staleness allows
  have hperm : ((touchAll l ops).filter fun a => a ∈ l).Perm (l.filter (stays ops)) := by
    refine (List.perm_ext_iff_of_nodup ((nodup_touchAll ops hl).filter _) (hl.filter _)).mpr ?_
    intro a
    rw [List.mem_filter, List.mem_filter, decide_eq_true_iff, and_comm]
    exact and_congr_right fun ha => mem_touchAll ops hl ha
  have hlast : (((touchAll l ops).filter fun a => a ∈ l).filter fun a => a ∈ named ops) =
      (l.filter (stays ops)).filter fun a => a ∈ named ops := by
    refine List.Perm.eq_of_pairwise (fun a b ha _ hab hba => ?_)
      (hsorted.sublist List.filter_sublist) (h.sublist List.filter_sublist) (hperm.filter _)
    exact eq_of_staleness_eq ops (of_decide_eq_true (List.mem_filter.mp ha).2)
      (Nat.le_antisymm hba hab)
  rw [eq_filter_append_filter ops hsorted, eq_filter_append_filter ops h, hfirst, hlast]

end Recency
