import MsnGuard.RustText
import MsnGuard.SerialWrites
import MsnGuard.TransitionRuns

/-!
# Frames on the stream of a gateway channel

Any number of tasks write frames to the stream of a channel, byte by byte, and only with the
stream to themselves. A task that is stopped within its frame gives the channel up before it lets
go of the stream, and whoever gets the stream looks whether the channel is still used.
-/

namespace MsnGuard.ChannelFrames

open RustText TransitionRuns FiniteTables SerialWrites Output List

/-- Where the task that has the stream stands. -/
inductive Stage where
  /-- Is the channel still used? -/
  | locked
  | writing
  /-- The task was stopped; the guard of its frame gives the channel up, then the stream
  is let go. -/
  | dropping (marked : Bool)
  deriving DecidableEq

/-- A channel, as far as its stream is concerned. -/
structure Channel where
  /-- Is the channel still used? -/
  alive : Bool
  /-- The frames of the tasks that wait for the stream. -/
  waiting : List Bytes
  /-- The task that has the stream. -/
  writer : Option (ℕ × Stage)
  /-- What the peer gets, with the frames that are not whole. -/
  out : Output UInt8

/-- What can be seen of the tasks. -/
inductive Event where
  | asked (frame : Bytes)
  /-- The last byte of a frame is written. -/
  | written (frame : Bytes)
  deriving DecidableEq

/-- What may happen next. -/
inductive Action where
  /-- A task is to write a frame. -/
  | write (frame : Bytes)
  /-- A task that waits is cancelled, or its time is up. -/
  | leave (i : ℕ)
  /-- A task that waits gets the stream, under a number that is not in use. -/
  | lock (i x : ℕ)
  | check
  /-- The stream takes the next byte. -/
  | push
  | finish
  /-- The stream fails, the time is up, or the task is cancelled. -/
  | stop
  | drop
  /-- Somebody gives the channel up. -/
  | invalidate

/-- One step; nothing when something has to wait. -/
def Channel.exec (c : Channel) : Action → Option (Channel × List Event)
  | .write frame =>
    some (if c.alive then {c with waiting := c.waiting++[frame]} else c,[.asked frame])
  | .leave i => some ({c with waiting := c.waiting.eraseIdx i},[])
  | .lock i x =>
    match c.writer,c.waiting[i]?,c.out.writers.lookup x with
    | none,some frame,none =>
      some ({c with
        waiting := c.waiting.eraseIdx i
        writer := some (x,.locked)
        out := if frame=[] then c.out else c.out.give x (frame.map ([·]))},[])
    | _,_,_ => none
  | .check =>
    match c.writer with
    | some (x,.locked) => some ({c with writer := if c.alive then some (x,.writing) else none},[])
    | _ => none
  | .push =>
    match c.writer with
    | some (x,.writing) =>
      (c.out.write x).map fun (out,frame) => ({c with out := out},frame.toList.map .written)
    | _ => none
  | .finish =>
    match c.writer with
    | some (x,.writing) =>
      if c.out.writers.lookup x=none then some ({c with writer := none},[]) else none
    | _ => none
  | .stop =>
    match c.writer with
    | some (x,.writing) => some ({c with writer := some (x,.dropping false)},[])
    | _ => none
  | .drop =>
    match c.writer with
    | some (x,.dropping false) =>
      some ({c with alive := false, writer := some (x,.dropping true)},[])
    | some (_,.dropping true) => some ({c with writer := none},[])
    | _ => none
  | .invalidate => some ({c with alive := false},[])

/-- Tasks on a new channel. -/
def machine : Machine Channel Action Event where
  start c := c=⟨true,[],none,⟨[],∅⟩⟩
  allowed _ _ := True
  exec := Channel.exec

/-- The frames that are written, in their order. -/
def frames (t : List Event) : List Bytes :=
  t.filterMap fun
    | .written frame => some frame
    | .asked _ => none

/-- What holds between the stream, the tasks and the history. -/
structure Sound (t : List Event) (c : Channel) : Prop where
  /-- The task of a frame that is half written is at it, or the channel is given up
  and nobody writes. -/
  torn : ∀ x w, c.out.writers.lookup x=some w → w.done≠[] →
    c.writer=some (x,.writing) ∨ c.writer=some (x,.dropping false) ∨
      c.alive=false ∧ ∀ y, c.writer≠some (y,.writing)
  waiting : ∀ frame∈c.waiting, .asked frame∈t
  items : Holds (fun frame => .asked frame∈t) c.out
  asked : ∀ frame∈frames t, .asked frame∈t
  serial : Serial (frames t) c.out

section Steps

variable {t new : List Event} {c c' : Channel} {x y : ℕ}

variable (h : Sound t c)

include h

/-- When a task may write, nothing of another frame that is not whole is out. -/
theorem Sound.others (hwriter : c.writer=some (x,.writing)) {w : Write UInt8}
    (hw : c.out.writers.lookup y=some w) (hne : y≠x) : w.done=[] := by
  by_contra hdone
  rcases h.torn y w hw hdone with hwriting | hdropping | ⟨_,hnone⟩
  · cases hwriter.symm.trans hwriting
    exact hne rfl
  · cases hwriter.symm.trans hdropping
  · exact hnone x hwriter

/-- A task gets the stream. -/
theorem Sound.lock {frame : Bytes} (hwriter : c.writer=none) (hasked : .asked frame∈t) (i : ℕ)
    (hx : c.out.writers.lookup x=none) :
    Sound t {c with
      waiting := c.waiting.eraseIdx i
      writer := some (x,.locked)
      out := if frame=[] then c.out else c.out.give x (frame.map ([·]))} := by
  have hdead : ∀ y w, c.out.writers.lookup y=some w → w.done≠[] → c.alive=false := by
    intro y w hw hdone
    rcases h.torn y w hw hdone with hsome | hsome | ⟨hdead,_⟩
    · cases hwriter.symm.trans hsome
    · cases hwriter.symm.trans hsome
    · exact hdead
  have hwaiting : ∀ frame∈c.waiting.eraseIdx i, .asked frame∈t := fun frame hmem =>
    h.waiting frame (mem_of_mem_eraseIdx hmem)
  by_cases hframe : frame=[]
  · rw [if_pos hframe]
    exact ⟨fun y w hw hdone => .inr (.inr ⟨hdead y w hw hdone,by simp⟩),hwaiting,h.items,h.asked,
      h.serial⟩
  · rw [if_neg hframe]
    refine ⟨fun y w hw hdone => .inr (.inr ⟨?_,by simp⟩),hwaiting,h.items.give ?_ (by simp),h.asked,
      h.serial.give hx _⟩
    · rw [Output.give,lookup_insert_eq] at hw
      split at hw
      · cases hw
        exact absurd rfl hdone
      · exact hdead y w hw hdone
    · rwa [←flatMap_def,flatMap_singleton']

/-- A task writes the next byte of its frame. -/
theorem Sound.push (hwriter : c.writer=some (x,.writing)) {out : Output UInt8}
    {frame : Option Bytes} (hwrite : c.out.write x=some (out,frame)) :
    Sound (t++frame.toList.map .written) {c with out := out} := by
  have hfree : c.out.free x=true := by
    rw [Output.free,Option.all_eq_true]
    intro w _
    simp only [Bool.or_eq_true,List.all_eq_true,decide_eq_true_eq,List.isEmpty_iff]
    refine .inr fun e hmem => or_iff_not_imp_left.mpr fun hne => ?_
    exact h.others hwriter (AList.mem_lookup_iff.mpr hmem) hne
  have hframes : frames (t++frame.toList.map .written)=frames t++frame.toList := by
    rw [frames,List.filterMap_append]
    cases frame <;> rfl
  have hlater : ∀ f, .asked f∈t → .asked f∈t++frame.toList.map .written := fun _ =>
    List.mem_append_left _
  obtain ⟨hitems,hitem⟩ := h.items.write hwrite
  refine ⟨fun y w hw hdone => ?_,fun f hf => hlater f (h.waiting f hf),hitems.mono hlater,
    fun f hf => ?_,hframes ▸ h.serial.write hfree hwrite⟩
  · cases write_written hwrite with
    | last _ => exact h.torn y w (lookup_of_erase hw) hdone
    | part _ =>
      rw [lookup_insert_eq] at hw
      split at hw
      · rename_i hyx
        exact .inl (hyx ▸ hwriter)
      · exact h.torn y w hw hdone
  · rw [hframes] at hf
    rcases mem_append.mp hf with hf | hf
    · exact hlater f (h.asked f hf)
    · exact hlater f (hitem f (Option.mem_toList.mp hf))

/-- The task that has the stream goes on and writes nothing. -/
theorem Sound.move {stage : Stage} (hwriter : c.writer=some (x,stage)) {alive : Bool}
    {writer : Option (ℕ × Stage)}
    (hown : stage=.writing ∨ stage=.dropping false → c.out.writers.lookup x=none ∨
      writer=some (x,.dropping false) ∨ alive=false ∧ ∀ y, writer≠some (y,.writing))
    (hdead : c.alive=false → stage≠.writing → alive=false ∧ ∀ y, writer≠some (y,.writing)) :
    Sound (t++[]) {c with alive := alive, writer := writer} := by
  rw [append_nil]
  refine {h with torn := fun y w hw hdone => ?_}
  have hmine (hstage : stage=.writing ∨ stage=.dropping false) (hyx : y=x) :
      writer=some (y,.dropping false) ∨ alive=false ∧ ∀ y, writer≠some (y,.writing) := by
    subst hyx
    rcases hown hstage with hwhole | hgoes
    · cases hwhole.symm.trans hw
    · exact hgoes
  rcases h.torn y w hw hdone with hsome | hsome | ⟨hgone,hnone⟩
  · cases hwriter.symm.trans hsome
    exact .inr (hmine (.inl rfl) rfl)
  · cases hwriter.symm.trans hsome
    exact .inr (hmine (.inr rfl) rfl)
  · refine .inr (.inr (hdead hgone ?_))
    rintro rfl
    exact hnone x hwriter

/-- Every step keeps what holds. -/
theorem Sound.exec {a : Action} (hexec : c.exec a=some (c',new)) : Sound (t++new) c' := by
  cases a with
  | write frame =>
    cases hexec
    have hlater : ∀ f, .asked f∈t → .asked f∈t++[.asked frame] := fun _ => List.mem_append_left _
    have hframes : frames (t++[.asked frame])=frames t := by simp [frames]
    have hnow : Sound (t++[.asked frame]) c := ⟨h.torn,fun f hf => hlater f (h.waiting f hf),
      h.items.mono hlater,fun f hf => hlater f (h.asked f (hframes ▸ hf)),hframes ▸ h.serial⟩
    split
    · refine {hnow with waiting := fun f hf => ?_}
      rcases mem_append.mp hf with hf | hf
      · exact hnow.waiting f hf
      · rw [mem_singleton.mp hf]
        exact mem_append_right _ mem_cons_self
    · exact hnow
  | leave i =>
    cases hexec
    rw [append_nil]
    exact {h with waiting := fun frame hmem => h.waiting frame (mem_of_mem_eraseIdx hmem)}
  | lock i x =>
    simp only [Channel.exec] at hexec
    split at hexec
    · rename_i frame hwriter hframe hx
      cases hexec
      rw [append_nil]
      exact h.lock hwriter (h.waiting frame (mem_of_getElem? hframe)) i hx
    · cases hexec
  | push =>
    simp only [Channel.exec] at hexec
    split at hexec
    · rename_i hwriter
      obtain ⟨⟨out,frame⟩,hwrite,heq⟩ := Option.map_eq_some_iff.mp hexec
      cases heq
      exact h.push hwriter hwrite
    · cases hexec
  | check =>
    simp only [Channel.exec] at hexec
    split at hexec
    · rename_i hwriter
      cases hexec
      exact h.move hwriter (by simp) fun hdead _ => ⟨hdead,by simp [hdead]⟩
    · cases hexec
  | finish =>
    simp only [Channel.exec] at hexec
    split at hexec
    · rename_i hwriter
      split at hexec
      · rename_i hwhole
        cases hexec
        exact h.move hwriter (fun _ => .inl hwhole) (by simp)
      · cases hexec
    · cases hexec
  | stop =>
    simp only [Channel.exec] at hexec
    split at hexec
    · rename_i hwriter
      cases hexec
      exact h.move hwriter (fun _ => .inr (.inl rfl)) (by simp)
    · cases hexec
  | drop =>
    simp only [Channel.exec] at hexec
    split at hexec
    · rename_i hwriter
      cases hexec
      exact h.move hwriter (fun _ => .inr (.inr ⟨rfl,by simp⟩)) fun _ _ => ⟨rfl,by simp⟩
    · rename_i hwriter
      cases hexec
      exact h.move hwriter (by simp) fun hdead _ => ⟨hdead,by simp⟩
    · cases hexec
  | invalidate =>
    cases hexec
    rw [append_nil]
    refine {h with torn := fun x w hw hdone => ?_}
    rcases h.torn x w hw hdone with hwriting | hdropping | ⟨_,hnone⟩
    · exact .inl hwriting
    · exact .inr (.inl hdropping)
    · exact .inr (.inr ⟨rfl,hnone⟩)

end Steps

theorem sound_of_run {t : List Event} {c : Channel} (h : machine.Run always t c) : Sound t c := by
  refine h.invariant Sound ?_ fun _ _ _ _ _ hsound _ _ hexec => hsound.exec hexec
  rintro _ rfl
  exact ⟨nofun,nofun,⟨nofun,nofun⟩,nofun,.idle rfl nofun⟩

/-- However many tasks write and wherever they are stopped, the peer gets whole frames that were
asked for, one after the other, with a part of one more at the end at most. While a task
may write, nothing is out of another frame that is not whole. -/
theorem frames_in_turn {t : List Event} {c : Channel} (h : machine.Run always t c) :
    (∃ part, c.out.sent=(frames t).flatten++part ∧
      (part=[] ∨ ∃ frame, .asked frame∈t ∧ part<+:frame)) ∧
      (∀ frame∈frames t, .asked frame∈t) ∧
      ∀ x y w, c.writer=some (x,.writing) → c.out.writers.lookup y=some w → y≠x → w.done=[] := by
  have hsound := sound_of_run h
  refine ⟨?_,hsound.asked,fun x y w hwriter hw hne => hsound.others hwriter hw hne⟩
  cases hsound.serial with
  | idle hsent _ => exact ⟨[],hsent.trans (List.append_nil _).symm,.inl rfl⟩
  | @busy x w hw _ hsent _ =>
    exact ⟨w.done,hsent,.inr ⟨w.whole,hsound.items.whole x w hw,List.prefix_append ..⟩⟩

/-- A task is cancelled within its frame while another one waits, which then gets the stream
and finds the channel given up. -/
theorem cancelled_within : ∃ t c, machine.Run always t c ∧
    (c.writer=none ∧ c.waiting=[] ∧ c.out.sent=[1,2,3,4] ∧ frames t=[[1,2,3]]) ∧
    ∀ x y w, c.writer=some (x,.writing) → c.out.writers.lookup y=some w → y≠x → w.done=[] :=
  Machine.exists_run_with (fun _ _ => true) (fun _ _ _ _ => ⟨trivial,trivial⟩) rfl
    [.write [1,2,3],.write [4,5],.write [6],.lock 0 0,.check,.push,.push,.push,.finish,.lock 0 1,
      .check,.push,.stop,.drop,.drop,.lock 0 2,.check] (by decide +kernel)
    fun _ _ h => (frames_in_turn h).2.2

end MsnGuard.ChannelFrames
