import Mathlib.Tactic

/-!
# Bounded channels with one receiver

A sender adds an item when there is room and the receiver has not been dropped; the receiver
takes items from the front. Dropping the receiver drops what is in the channel.
-/

namespace MsnGuard.BoundedChannels

variable {α : Type}

/-- A channel between a sender and a receiver. -/
structure Chan (α : Type) where
  /-- Number of items that fit. -/
  capacity : ℕ
  /-- Items that were sent and not received. -/
  queue : List α
  /-- Whether the receiver still exists. -/
  rxAlive : Bool
  /-- The items fit. -/
  bounded : queue.length≤capacity

/-- What a sender learns when it asks for room. -/
inductive Reserve where
  | ready
  | full
  | closed
  deriving DecidableEq

namespace Chan

/-- A channel without items. -/
def empty (capacity : ℕ) : Chan α := ⟨capacity,[],true,Nat.zero_le _⟩

/-- Number of items that can still be sent. -/
def room (c : Chan α) : ℕ := c.capacity-c.queue.length

/-- Ask for room for one item. -/
def tryReserve (c : Chan α) : Reserve :=
  if c.rxAlive=false then .closed
  else if c.queue.length=c.capacity then .full
  else .ready

/-- Add an item behind the others, if there is room. -/
def send (c : Chan α) (a : α) : Chan α :=
  if h : c.queue.length<c.capacity then
    ⟨c.capacity,c.queue++[a],c.rxAlive,by rw [List.length_append,List.length_singleton]; omega⟩
  else c

/-- Take a number of items from the front. -/
def read (c : Chan α) (n : ℕ) : Chan α :=
  ⟨c.capacity,c.queue.drop n,c.rxAlive,by
    have h := c.bounded
    rw [List.length_drop]
    omega⟩

/-- Drop the receiver. -/
def dropReceiver (c : Chan α) : Chan α := ⟨c.capacity,[],false,Nat.zero_le _⟩

end Chan

/-- What the receiving side does to a channel while the sender looks away. -/
structure Moves where
  /-- Number of items it takes. -/
  reads : ℕ
  /-- Whether it drops the receiver afterwards. -/
  drops : Bool
  deriving DecidableEq

namespace Chan

/-- The channel after some moves of the receiving side. -/
def after (c : Chan α) (moves : Moves) : Chan α :=
  if moves.drops then c.dropReceiver else c.read moves.reads

/-- A sender finds the channel closed when the receiver has been dropped. -/
theorem closed_iff {c : Chan α} : c.tryReserve=.closed ↔ c.rxAlive=false := by
  unfold tryReserve
  split_ifs <;> simp_all

/-- A sender finds room when the receiver is there and the channel is not full. -/
theorem ready_iff {c : Chan α} :
    c.tryReserve=.ready ↔ c.rxAlive=true ∧ c.queue.length<c.capacity := by
  have hbound := c.bounded
  unfold tryReserve
  split_ifs with halive hfull
  · simp [halive]
  · simp [hfull]
  · have hlt : c.queue.length<c.capacity := by omega
    simp [hlt,Bool.eq_true_of_not_eq_false halive]

theorem room_send {c : Chan α} (h : c.queue.length<c.capacity) (a : α) :
    (c.send a).room+1=c.room := by
  unfold send room
  rw [dif_pos h]
  dsimp only
  rw [List.length_append,List.length_singleton]
  omega

theorem rxAlive_send (c : Chan α) (a : α) : (c.send a).rxAlive=c.rxAlive := by
  unfold send
  split <;> rfl

/-- A receiver that is still there was there before. -/
theorem rxAlive_of_after {c : Chan α} {moves : Moves} (h : (c.after moves).rxAlive=true) :
    c.rxAlive=true ∧ moves.drops=false := by
  unfold after at h
  cases hd : moves.drops with
  | true =>
    rw [hd,if_pos rfl] at h
    cases h
  | false =>
    rw [hd,if_neg (by decide)] at h
    exact ⟨h,rfl⟩

/-- Reading makes room. -/
theorem room_after {c : Chan α} {moves : Moves} (h : moves.drops=false) :
    c.room≤(c.after moves).room := by
  unfold after
  rw [h,if_neg (by decide)]
  dsimp only [read,room]
  rw [List.length_drop]
  omega

end Chan

end MsnGuard.BoundedChannels
