import Mathlib.Data.List.Nodup
import Mathlib.Data.List.Induction

/-!
# Doubly linked lists

Nodes know the node before and the node after them. `Linked prev next before after nodes` says that
`nodes` are linked in this order, that `before` comes before the first and `after` after the last.

* `Linked.append_iff` — two lists, one after the other
* `Linked.unlink` — taking a node out
-/

namespace Kaede.Infra

variable {ι : Type*}

def Linked (prev next : ι → Option ι) : Option ι → Option ι → List ι → Prop
  | _, _, [] => True
  | before, after, i :: nodes =>
    prev i = before ∧ next i = nodes.head?.or after ∧ Linked prev next (some i) after nodes

namespace Linked

variable {prev next prev' next' : ι → Option ι} {before after : Option ι} {nodes : List ι} {i j : ι}

theorem congr (h : Linked prev next before after nodes)
    (hprev : ∀ k ∈ nodes, prev' k = prev k) (hnext : ∀ k ∈ nodes, next' k = next k) :
    Linked prev' next' before after nodes := by
  induction nodes generalizing before with
  | nil => trivial
  | cons i nodes ih =>
    obtain ⟨hi, hi', hnodes⟩ := h
    refine ⟨(hprev i List.mem_cons_self).trans hi, (hnext i List.mem_cons_self).trans hi',
      ih hnodes ?_ ?_⟩
    · exact fun k hk => hprev k (List.mem_cons_of_mem i hk)
    · exact fun k hk => hnext k (List.mem_cons_of_mem i hk)

theorem append_iff {left right : List ι} :
    Linked prev next before after (left ++ right) ↔
      Linked prev next before (right.head?.or after) left ∧
        Linked prev next (left.getLast?.or before) after right := by
  induction left generalizing before with
  | nil => simp [Linked]
  | cons i left ih =>
    have hlast : (i :: left).getLast?.or before = left.getLast?.or (some i) := by
      rw [List.getLast?_cons]
      cases left.getLast? <;> rfl
    have hhead : (left ++ right).head?.or after = left.head?.or (right.head?.or after) := by
      rw [List.head?_append, Option.or_assoc]
    rw [List.cons_append, Linked, Linked, ih, hlast, hhead, and_assoc, and_assoc]

theorem concat_iff :
    Linked prev next before after (nodes ++ [i]) ↔
      Linked prev next before (some i) nodes ∧ prev i = nodes.getLast?.or before ∧
        next i = after := by
  rw [append_iff]
  simp [Linked]

/-- **A node is taken out** by telling its neighbours of each other. -/
theorem unlink {left right : List ι} (h : Linked prev next before after (left ++ i :: j :: right))
    (hnodup : (left ++ i :: j :: right).Nodup)
    (hnext : next' i = next j) (hnext' : ∀ k ∈ left ++ right, next' k = next k)
    (hprev : ∀ k ∈ left ++ [i], prev' k = prev k) (hhead : ∀ k, next j = some k → prev' k = some i)
    (hprev' : ∀ k ∈ right, next j ≠ some k → prev' k = prev k) :
    Linked prev' next' before after (left ++ i :: right) := by
  obtain ⟨hleft, hi, hi', hj, hj', hright⟩ := append_iff.mp h
  refine append_iff.mpr ⟨?_, ?_, ?_, ?_⟩
  · refine hleft.congr ?_ ?_
    · exact fun k hk => hprev k (List.mem_append_left _ hk)
    · exact fun k hk => hnext' k (List.mem_append_left _ hk)
  · exact (hprev i (List.mem_append_right _ List.mem_cons_self)).trans hi
  · exact hnext.trans hj'
  · cases right with
    | nil => trivial
    | cons k right =>
      obtain ⟨hk, hk', hrest⟩ := hright
      refine ⟨hhead k hj', ?_, hrest.congr ?_ ?_⟩
      · exact (hnext' k (by simp)).trans hk'
      · intro m hm
        refine hprev' m (List.mem_cons_of_mem k hm) ?_
        rw [hj']
        rintro ⟨⟩
        -- `m` would come twice
        have hdup := (List.nodup_append.mp hnodup).2.1
        simp only [List.nodup_cons] at hdup
        exact hdup.2.2.1 hm
      · exact fun m hm => hnext' m (by simp [hm])

end Linked

end Kaede.Infra
