import Mathlib.Tactic

/-!
# Streams through several stages

What has been queued waits, is then taken into a buffer, and leaves the buffer from the front.
As long as every stage works in order, what has left is always the beginning of what was queued.
-/

namespace MsnGuard.StagedStreams

open List

variable {α : Type}

/-- A stream with the contents of its stages. A missing value is a close. -/
structure Stream (α : Type) where
  /-- All that has been queued. -/
  queued : List (Option α)
  /-- What waits to be taken. -/
  waiting : List (Option α)
  /-- What has left the buffer. -/
  accepted : List α
  /-- What is in the buffer. -/
  pending : List α
  /-- Whether the close has been seen. -/
  closed : Bool

/-- The values among what was queued. -/
def values (items : List (Option α)) : List α := items.filterMap id

theorem values_append (items more : List (Option α)) :
    values (items++more)=values items++values more := filterMap_append

theorem values_some (xs : List α) : values (xs.map some)=xs := by
  rw [values,filterMap_map,Function.id_comp,filterMap_some]

namespace Stream

/-- One stage works. -/
inductive Step : Stream α → Stream α → Prop
  /-- Something is queued. -/
  | enqueue (x : Stream α) (items : List (Option α)) :
      Step x {x with queued := x.queued++items,waiting := x.waiting++items}
  /-- The first values are taken into the buffer. -/
  | take (x : Stream α) (xs : List α) (rest : List (Option α)) :
      x.waiting=xs.map some++rest →
      Step x {x with waiting := rest,pending := x.pending++xs}
  /-- The close is seen. -/
  | close (x : Stream α) (rest : List (Option α)) : x.waiting=none::rest →
      Step x {x with waiting := rest,closed := true}
  /-- The buffer is emptied from the front. -/
  | send (x : Stream α) (sent rest : List α) : x.pending=sent++rest →
      Step x {x with accepted := x.accepted++sent,pending := rest}

/-- What is no longer waiting is the beginning of what was queued; its values
have left or are in the buffer, and it holds the close that has been seen. -/
def Ordered (x : Stream α) : Prop :=
  ∃ taken, x.queued=taken++x.waiting ∧ values taken=x.accepted++x.pending ∧
    (x.closed=true → none∈taken)

theorem Ordered.step {x y : Stream α} (hx : x.Ordered) (h : Step x y) : y.Ordered := by
  rcases hx with ⟨taken,hqueued,hvalues,hclosed⟩
  cases h with
  | enqueue items =>
    refine ⟨taken,?_,hvalues,hclosed⟩
    rw [hqueued,append_assoc]
  | take xs rest hwaiting =>
    refine ⟨taken++xs.map some,?_,?_,fun hc => mem_append_left _ (hclosed hc)⟩
    · rw [hqueued,hwaiting,append_assoc]
    · rw [values_append,values_some,hvalues,append_assoc]
  | close rest hwaiting =>
    refine ⟨taken++[none],?_,?_,fun _ => mem_append_right _ (mem_singleton_self _)⟩
    · rw [hqueued,hwaiting,append_assoc,singleton_append]
    · have hnone : values [(none : Option α)]=[] := rfl
      rw [values_append,hvalues,hnone,append_nil]
  | send sent rest hpending =>
    refine ⟨taken,hqueued,?_,hclosed⟩
    rw [hvalues,hpending,append_assoc]

/-- Nothing is lost, doubled or out of order. -/
theorem Ordered.values_queued {x : Stream α} (hx : x.Ordered) :
    values x.queued=x.accepted++(x.pending++values x.waiting) := by
  rcases hx with ⟨taken,hqueued,hvalues,-⟩
  rw [hqueued,values_append,hvalues,append_assoc]

/-- When the close has been seen, everything queued before the first close has
been taken. -/
theorem Ordered.before_close {x : Stream α} (hx : x.Ordered) (hclosed : x.closed=true)
    {before after : List (Option α)} (hsplit : x.queued=before++none::after)
    (hfirst : none ∉ before) : values before <+: x.accepted++x.pending := by
  rcases hx with ⟨taken,hqueued,hvalues,hseen⟩
  have hbefore : before <+: x.queued := ⟨_,hsplit.symm⟩
  have htaken : taken <+: x.queued := ⟨_,hqueued.symm⟩
  rw [←hvalues]
  rcases prefix_or_prefix_of_prefix hbefore htaken with hle | hle
  · exact hle.filterMap id
  · exact absurd (hle.subset (hseen hclosed)) hfirst

end Stream

end MsnGuard.StagedStreams
