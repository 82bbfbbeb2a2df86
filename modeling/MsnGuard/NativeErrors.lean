import MsnGuard.IncrementalReading
import MsnGuard.RustText

/-!
# The error text of a job

The engine writes the error of a job into a JSON text, and the native layer takes the
text between two quotes out of it, without a look at the escapes.
-/

namespace MsnGuard.NativeErrors

open RustText IncrementalReading List

def quote : Char := Char.ofNat 34

/-- A control character in a JSON string. -/
def escapeControl : ℕ → Text
  | 8 => ['\\','b']
  | 9 => ['\\','t']
  | 10 => ['\\','n']
  | 12 => ['\\','f']
  | 13 => ['\\','r']
  | n => ['\\','u','0','0',Nat.digitChar (n / 16),Nat.digitChar (n % 16)]

/-- A character in a JSON string. -/
def escapeChar (c : Char) : Text :=
  if c=quote then ['\\',quote]
  else if c = '\\' then ['\\','\\']
  else if c.toNat<32 then escapeControl c.toNat
  else [c]

/-- An error as an object; the keys of an object are sorted. -/
def errorValue (message : Text) : Text :=
  "\x7b\"error\":\"".toList++(message.flatMap escapeChar++"\",\"ok\":false\x7d".toList)

/-- A job as the engine has it, with its result as a JSON text. -/
inductive JobState where
  | running
  | done (result : Text)

/-- The reply to a poll. -/
def jobPoll (id : ℕ) : Option JobState → Text
  | none => errorValue ("there is no job ".toList++Nat.toDigits 10 id)
  | some .running => "\x7b\"ok\":true,\"state\":\"running\"\x7d".toList
  | some (.done result) =>
    "\x7b\"ok\":true,\"result\":".toList++(result++",\"state\":\"done\"\x7d".toList)

/-- What stands before and behind the error in the reply for a job that has failed. -/
def beforeError : Text := "\x7b\"ok\":true,\"result\":".toList++"\x7b\"error\":\"".toList

def behindError : Text := "\",\"ok\":false\x7d".toList++",\"state\":\"done\"\x7d".toList

theorem jobPoll_failed (id : ℕ) (message : Text) : jobPoll id (some (.done (errorValue message)))=
    beforeError++(message.flatMap escapeChar++behindError) := by
  have hassoc (a b c d e : Text) : a++((b++(c++d))++e)=(a++b)++(c++(d++e)) := by
    simp only [append_assoc]
  exact hassoc _ _ _ _ _

def extractErrorText (payload : Text) : Text :=
  let found := do
    let key ← findFrom "\"error\"".toList payload 0
    let first ← findFrom [quote] payload (key+7)
    let stop ← findFrom [quote] payload (first+1)
    pure ((payload.drop (first+1)).take (stop-first-1))
  found.getD payload

/-- The number of the job, zero for none, the jobs of the engine, and the error that is
kept for later. -/
structure Host where
  gJob : ℕ
  jobs : ℕ → Option JobState
  gLastError : Text

def Host.poll (h : Host) : Text := jobPoll h.gJob (h.jobs h.gJob)

/-- A job that is done is freed, and its error is kept. -/
def nativeIsRunning (h : Host) : Bool × Host :=
  if h.gJob=0 then (false,h)
  else if containsText "\"state\":\"done\"".toList h.poll then
    (false,⟨0,Function.update h.jobs h.gJob none,
      if containsText "\"ok\":false".toList h.poll then extractErrorText h.poll
      else h.gLastError⟩)
  else (true,h)

def nativeLastError (h : Host) : Text × Host :=
  if h.gJob=0 then (h.gLastError,h)
  else if containsText "\"ok\":false".toList h.poll then
    (extractErrorText h.poll,{h with gLastError := extractErrorText h.poll})
  else ([],h)

theorem findFrom_quote (front : Text) {text : Text} (h : quote∉text) (back : Text) :
    findFrom [quote] (front++(text++quote::back)) front.length=
      some (front.length+text.length) := by
  have hposition : position [quote] (text++quote::back)=some text.length := by
    refine (position_eq_some (by simp)).mpr ⟨?_,fun j hj hhere => ?_⟩
    · rw [Here,drop_left]
      rfl
    · rw [Here,drop_append_of_le_length hj.le,drop_eq_getElem_cons hj] at hhere
      have hsame : text[j]=quote := (cons.inj hhere).1
      exact h (hsame ▸ getElem_mem hj)
  rw [findFrom,drop_left,hposition]
  rfl

theorem split_quote (text rest : Text) :
    ∃ back, text++quote::rest=text.takeWhile (·≠quote)++quote::back := by
  induction text with
  | nil => exact ⟨rest,rfl⟩
  | cons c text ih =>
    obtain ⟨back,hback⟩ := ih
    by_cases h : c=quote
    · exact ⟨text++quote::rest,by simp [h]⟩
    · exact ⟨back,by simp [h,hback]⟩

/-- The text ends at the first quote, be it escaped or not. -/
theorem extractErrorText_failed (id : ℕ) (message : Text) :
    extractErrorText (jobPoll id (some (.done (errorValue message))))=
      (message.flatMap escapeChar).takeWhile (·≠quote) := by
  have hnone : quote∉(message.flatMap escapeChar).takeWhile (·≠quote) := by
    intro hmem
    simpa using mem_takeWhile_imp hmem
  obtain ⟨back,hback⟩ := split_quote (message.flatMap escapeChar) behindError.tail
  have hpayload : jobPoll id (some (.done (errorValue message)))=
      beforeError++((message.flatMap escapeChar).takeWhile (·≠quote)++quote::back) :=
    (jobPoll_failed id message).trans (congrArg (beforeError++·) hback)
  have hkey : findFrom "\"error\"".toList (jobPoll id (some (.done (errorValue message)))) 0=
      some 21 := by
    rw [hpayload]
    exact findFrom_grow (by decide) (prefix_append beforeError _) (by decide +kernel)
  have hfirst : findFrom [quote] (jobPoll id (some (.done (errorValue message)))) 28=some 29 := by
    rw [hpayload]
    exact findFrom_grow (by decide) (prefix_append beforeError _) (by decide +kernel)
  have hstop := findFrom_quote beforeError hnone back
  rw [←hpayload,show beforeError.length=30 from rfl] at hstop
  simp only [extractErrorText,hkey,Option.bind_eq_bind,Option.bind_some,hfirst,hstop]
  rw [hpayload]
  change ((beforeError++_).drop beforeError.length).take _=_
  rw [drop_left,take_left' (by omega)]

theorem escapeControl_spec : ∀ n<32, quote∉escapeControl n ∧ 2≤(escapeControl n).length := by
  decide

/-- What is escaped gets longer, and only a quote brings a quote. -/
theorem escapeChar_spec (c : Char) :
    (escapeChar c=[c] ∨ 2≤(escapeChar c).length) ∧ (c≠quote → quote∉escapeChar c) := by
  unfold escapeChar
  split
  · rename_i hquote
    exact ⟨.inr le_rfl,fun hne => absurd hquote hne⟩
  split
  · exact ⟨.inr le_rfl,fun _ => by decide⟩
  split
  · rename_i hcontrol
    obtain ⟨hnone,hlength⟩ := escapeControl_spec c.toNat hcontrol
    exact ⟨.inr hlength,fun _ => hnone⟩
  · exact ⟨.inl rfl,fun hne => by simpa using hne.symm⟩

/-- Only what has nothing to escape is written as it is. -/
theorem escaped_spec (message : Text) : message.length≤(message.flatMap escapeChar).length ∧
    (message.flatMap escapeChar=message ↔ ∀ c∈message, escapeChar c=[c]) := by
  induction message with
  | nil => simp
  | cons c message ih =>
    obtain ⟨hle,hiff⟩ := ih
    rw [flatMap_cons,forall_mem_cons,←hiff]
    rcases (escapeChar_spec c).1 with hsame | hlonger
    · simpa [hsame] using hle
    · have hlength : (c::message).length<(escapeChar c++message.flatMap escapeChar).length := by
        rw [length_append,length_cons]
        omega
      refine ⟨hlength.le,fun heq => absurd (congrArg length heq) hlength.ne',?_⟩
      rintro ⟨hsame,-⟩
      rw [hsame] at hlonger
      cases hlonger
      contradiction

/-- The first job has failed. -/
def failedHost (message : String) : Host :=
  ⟨1,fun _ => some (.done (errorValue message.toList)),[]⟩

end MsnGuard.NativeErrors
