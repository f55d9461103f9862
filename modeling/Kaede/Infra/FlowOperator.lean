import Mathlib.Data.List.Basic
import Mathlib.Data.List.Induction

/-!
# Operators on a flow

An operator collects a flow element by element, may send something for each, and may send
something more when the flow completes.

* `transform_eq` — what it sends while it collects, and then the last send
* `afterEach_invariant` — what every element preserves holds after any number of elements
-/

namespace Kaede.Infra

/-- The local variables are in `σ`, the elements in `α`, and what is sent in `β`. -/
structure FlowOperator (σ α β : Type*) where
  start : σ
  onEach : σ → α → σ × Option β
  onCompletion : σ → Option β

namespace FlowOperator

variable {σ α β : Type*} (op : FlowOperator σ α β)

/-- The local variables and what has been sent, once these elements have been collected. -/
def afterEach (elements : List α) : σ × List β :=
  elements.foldl
    (fun (state, sent) element =>
      ((op.onEach state element).1, sent ++ (op.onEach state element).2.toList))
    (op.start, [])

/-- Everything that is sent for a flow that completes. -/
def transform (elements : List α) : List β :=
  (op.afterEach elements).2 ++ (op.onCompletion (op.afterEach elements).1).toList

@[simp] theorem afterEach_nil : op.afterEach [] = (op.start, []) := rfl

theorem afterEach_concat (elements : List α) (element : α) :
    op.afterEach (elements ++ [element]) =
      ((op.onEach (op.afterEach elements).1 element).1,
        (op.afterEach elements).2 ++ (op.onEach (op.afterEach elements).1 element).2.toList) := by
  rw [afterEach, List.foldl_append]
  rfl

theorem transform_eq (elements : List α) :
    op.transform elements =
      (op.afterEach elements).2 ++ (op.onCompletion (op.afterEach elements).1).toList := rfl

/-- What has been sent stays sent. -/
theorem sent_prefix_transform {received elements : List α} (h : received <+: elements) :
    (op.afterEach received).2 <+: op.transform elements := by
  obtain ⟨rest, rfl⟩ := h
  refine List.IsPrefix.trans ?_ (List.prefix_append _ _)
  induction rest using List.reverseRecOn with
  | nil => simp
  | append_singleton rest element ih =>
    rw [← List.append_assoc, afterEach_concat]
    exact ih.trans (List.prefix_append _ _)

/-- What holds at the start and is preserved by every element holds after any number of them. -/
theorem afterEach_invariant {I : List α → σ → List β → Prop} (hstart : I [] op.start [])
    {elements : List α}
    (hstep : ∀ received element state sent, received ++ [element] <+: elements →
      I received state sent →
        I (received ++ [element]) (op.onEach state element).1
          (sent ++ (op.onEach state element).2.toList)) :
    I elements (op.afterEach elements).1 (op.afterEach elements).2 := by
  induction elements using List.reverseRecOn with
  | nil => exact hstart
  | append_singleton elements element ih =>
    rw [afterEach_concat]
    refine hstep _ _ _ _ List.prefix_rfl (ih fun received x state sent hreceived => ?_)
    exact hstep received x state sent (hreceived.trans (List.prefix_append _ _))

end FlowOperator

end Kaede.Infra
