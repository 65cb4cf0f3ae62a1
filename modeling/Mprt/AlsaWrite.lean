import Mathlib.Data.List.Basic
import Mathlib.Tactic.Common

/-!
# Writing frames to an ALSA device

`direct_write` and `poll_write` hand frames to the device until it has taken all
of them or an error ends the call. What the device answers, to each write, poll
and question for its state, is a list that the loops take one by one; there is no
result when it answers something else than it is asked. The resume and prepare
calls of `xrun_recovery` have no answer here, because its result does not depend
on theirs.

Besides the result of the call, the bytes of the frames that the device has
accepted are collected; no branch reads them.
-/

namespace Mprt.AlsaWrite

/-- The error numbers that the plugin names. -/
def eio : Int := 5
def eagain : Int := 11
def epipe : Int := 32
def estrpipe : Int := 86

inductive PcmState where
  | running
  | xrun
  | suspended
  | other
deriving DecidableEq

/-- An answer of the device: to `snd_pcm_writei`, to a poll whether `POLLERR` and
`POLLOUT` are set, and to `snd_pcm_state`. -/
inductive Answer where
  | writei (result : Int)
  | poll (error output : Bool)
  | pcmState (state : PcmState)
deriving DecidableEq

/-- `xrun_recovery`. -/
def xrunRecovery (err : Int) : Int := if err = -epipe ∨ err = -estrpipe then 0 else err

/-- The result of a write, the bytes of the accepted frames, and `_poll_init`. -/
structure Written where
  writtenSamples : Int
  accepted : List UInt8
  pollInit : Bool
deriving DecidableEq

/-- The loop of `direct_write` with the answers that are left over. The device
accepts no more frames than it is given. -/
def directWrite (frameBytes : Nat) (pollInit : Bool) (answers : List Answer) (buf : List UInt8)
    (size : Nat) (writtenSamples : Int) (accepted : List UInt8) :
    Option (Written × List Answer) :=
  if size = 0 then some (⟨writtenSamples, accepted, pollInit⟩, answers)
  else
    match answers with
    | .writei err :: rest =>
        if err < 0 then
          if err = -eagain then
            directWrite frameBytes pollInit rest buf size writtenSamples accepted
          else if xrunRecovery err < 0 then some (⟨-1, accepted, pollInit⟩, rest)
          else directWrite frameBytes pollInit rest buf size writtenSamples accepted
        else if size < err then none
        else
          let bytes := err.toNat * frameBytes
          directWrite frameBytes pollInit rest (buf.drop bytes) (size - err.toNat)
            (writtenSamples + err) (accepted ++ buf.take bytes)
    | _ => none

def waitForPoll : List Answer → Option (Int × List Answer)
  | .poll error output :: rest =>
      if error then some (-eio, rest) else if output then some (0, rest) else waitForPoll rest
  | _ => none

/-- The error that the state of the device is taken for, when it is asked for the
last time. -/
def chosenError : List Answer → Option (Option Int × List Answer)
  | .pcmState state :: rest => some (some (if state = .xrun then -epipe else -estrpipe), rest)
  | _ => none

/-- After a failed wait: the error that the state of the device stands for, or
nothing when it is neither `XRUN` nor `SUSPENDED`. The state is asked for anew
in each comparison. -/
def stateError : List Answer → Option (Option Int × List Answer)
  | .pcmState first :: rest =>
      if first = .xrun then chosenError rest
      else
        match rest with
        | .pcmState second :: rest =>
            if second = .suspended then chosenError rest else some (none, rest)
        | _ => none
  | _ => none

/-- The loop of `poll_write`. Every pass takes an answer, which bounds the passes. -/
def pollWriteLoop (frameBytes : Nat) :
    Nat → Bool → List Answer → List UInt8 → Nat → Int → List UInt8 →
      Option (Written × List Answer)
  | 0, _, _, _, _, _, _ => none
  | fuel + 1, pollInit, answers, buf, size, writtenSamples, accepted =>
    if size = 0 then some (⟨writtenSamples, accepted, pollInit⟩, answers)
    else
      match answers with
      | .writei err :: rest =>
          if err < 0 then
            if xrunRecovery err < 0 then some (⟨-1, accepted, pollInit⟩, rest)
            else some (⟨writtenSamples, accepted, true⟩, rest)
          else if size < err then none
          else
            match rest with
            | .pcmState state :: rest =>
                let pollInit := if state = .running then false else pollInit
                let bytes := err.toNat * frameBytes
                let taken := accepted ++ buf.take bytes
                let left := size - err.toNat
                let goOn := fun pollInit answers => pollWriteLoop frameBytes fuel pollInit answers
                  (buf.drop bytes) left (writtenSamples + err) taken
                if left = 0 then goOn pollInit rest
                else
                  match waitForPoll rest with
                  | none => none
                  | some (err, rest) =>
                      if err < 0 then
                        match stateError rest with
                        | none => none
                        | some (none, rest) => some (⟨err, taken, pollInit⟩, rest)
                        | some (some stateErr, rest) =>
                            if xrunRecovery stateErr < 0 then some (⟨-1, taken, pollInit⟩, rest)
                            else goOn true rest
                      else goOn pollInit rest
            | _ => none
      | _ => none

/-- `poll_write`. -/
def pollWrite (frameBytes : Nat) (pollInit : Bool) (answers : List Answer) (buf : List UInt8)
    (size : Nat) : Option (Written × List Answer) :=
  let write := fun pollInit answers =>
    pollWriteLoop frameBytes (answers.length + 1) pollInit answers buf size 0 []
  if pollInit then write pollInit answers
  else
    match waitForPoll answers with
    | none => none
    | some (err, rest) =>
        if err < 0 then
          match stateError rest with
          | none => none
          | some (none, rest) => some (⟨-1, [], pollInit⟩, rest)
          | some (some stateErr, rest) =>
              if xrunRecovery stateErr < 0 then some (⟨-1, [], pollInit⟩, rest)
              else write true rest
        else write pollInit rest

/-- The call that `play` makes, with exactly the answers of the device. -/
def write (usePoll : Bool) (frameBytes : Nat) (pollInit : Bool) (answers : List Answer)
    (buf : List UInt8) (size : Nat) : Option Written :=
  let result :=
    if usePoll then pollWrite frameBytes pollInit answers buf size
    else directWrite frameBytes pollInit answers buf size 0 []
  match result with
  | some (written, []) => some written
  | _ => none

/-- An error of a write that ends the call. Only `direct_write` tries again after
`EAGAIN`. -/
def unrecoverable (usePoll : Bool) (err : Int) : Bool :=
  err < 0 && xrunRecovery err < 0 && (usePoll || err ≠ -eagain)

/-- The device answers with an error that ends the call: an unrecoverable one to a
write, or one to a poll while its state is neither `XRUN` nor `SUSPENDED`. -/
def fails (usePoll : Bool) : List Answer → Bool
  | [] => false
  | .writei err :: rest => unrecoverable usePoll err || fails usePoll rest
  | .poll true _ :: .pcmState first :: .pcmState second :: rest =>
      (first ≠ .xrun && second ≠ .suspended) || fails usePoll rest
  | _ :: rest => fails usePoll rest

/-- The device accepts a frame. -/
def accepts (answers : List Answer) : Bool :=
  answers.any (fun
    | .writei result => 0 < result
    | _ => false)

/-- What a call has done: the accepted frames are the first ones, and there are
some exactly when the device has accepted one; the call returns their number
unless the device has answered with an error that ends it. -/
def Accounts (usePoll : Bool) (frameBytes : Nat) (answers : List Answer) (buf : List UInt8)
    (size : Nat) (writtenSamples : Int) (accepted : List UInt8) (result : Written) : Prop :=
  ∃ count, count ≤ size ∧ result.accepted = accepted ++ buf.take (count * frameBytes) ∧
    (0 < count ↔ accepts answers = true) ∧
    ((fails usePoll answers = true ∧ result.writtenSamples < 0) ∨
      (fails usePoll answers = false ∧ result.writtenSamples = writtenSamples + count))

variable {usePoll pollInit : Bool} {frameBytes size : Nat} {answers rest : List Answer}
  {buf accepted : List UInt8} {writtenSamples err : Int} {result : Written}

/-- Without a further answer nothing more is accepted. -/
theorem accounts_end (buf : List UInt8) (size : Nat) (pollInit : Bool) :
    Accounts usePoll frameBytes [] buf size writtenSamples accepted
      ⟨writtenSamples, accepted, pollInit⟩ :=
  ⟨0, Nat.zero_le size, by simp, by simp [accepts], .inr ⟨rfl, by simp⟩⟩

/-- An error that the call recovers from changes nothing. -/
theorem accounts_recovered (negative : err < 0) (recovered : unrecoverable usePoll err = false)
    (later : Accounts usePoll frameBytes rest buf size writtenSamples accepted result) :
    Accounts usePoll frameBytes (.writei err :: rest) buf size writtenSamples accepted result := by
  obtain ⟨count, within, taken, some, ended⟩ := later
  have refused : ¬ 0 < err := by omega
  refine ⟨count, within, taken, ?_, ?_⟩
  · rw [some]
    simp [accepts, refused]
  · simpa [fails, recovered] using ended

/-- Another error ends the call. -/
theorem accounts_failed (negative : err < 0) (fatal : unrecoverable usePoll err = true)
    (pollInit : Bool) :
    Accounts usePoll frameBytes [.writei err] buf size writtenSamples accepted
      ⟨-1, accepted, pollInit⟩ := by
  have refused : ¬ 0 < err := by omega
  refine ⟨0, Nat.zero_le size, by simp, by simp [accepts, refused], .inl ⟨?_, by simp⟩⟩
  simp [fails, fatal]

/-- Accepted frames come before those that are accepted later. -/
theorem accounts_accepted (positive : 0 ≤ err) (fits : err ≤ size)
    (later : Accounts usePoll frameBytes rest (buf.drop (err.toNat * frameBytes))
      (size - err.toNat) (writtenSamples + err)
      (accepted ++ buf.take (err.toNat * frameBytes)) result) :
    Accounts usePoll frameBytes (.writei err :: rest) buf size writtenSamples accepted result := by
  obtain ⟨count, within, taken, some, ended⟩ := later
  have recovered : unrecoverable usePoll err = false := by
    simp [unrecoverable, Int.not_lt.mpr positive]
  refine ⟨err.toNat + count, by omega, ?_, ?_, ?_⟩
  · rw [taken, List.append_assoc, Nat.add_mul, List.take_add]
  · have first : 0 < err.toNat + count ↔ 0 < err ∨ 0 < count := by omega
    rw [first, some]
    simp [accepts]
  · rcases ended with ⟨failed, negative⟩ | ⟨succeeded, total⟩
    · exact .inl ⟨by simpa [fails, recovered] using failed, negative⟩
    · refine .inr ⟨by simpa [fails, recovered] using succeeded, ?_⟩
      omega

/-- `direct_write` accounts for the frames that the device accepts. -/
theorem directWrite_accounts
    (wrote : directWrite frameBytes pollInit answers buf size writtenSamples accepted =
      some (result, [])) :
    Accounts false frameBytes answers buf size writtenSamples accepted result := by
  induction answers generalizing buf size writtenSamples accepted with
  | nil =>
    simp only [directWrite] at wrote
    split at wrote
    · simp only [Option.some.injEq, Prod.mk.injEq, and_true] at wrote
      exact wrote ▸ accounts_end buf size pollInit
    · contradiction
  | cons answer rest inductionHypothesis =>
    cases answer with
    | writei err =>
      simp only [directWrite] at wrote
      split at wrote
      · simp at wrote
      · split at wrote
        · rename_i negative
          split at wrote
          · rename_i again
            have recovered : unrecoverable false err = false := by simp [unrecoverable, again]
            exact accounts_recovered negative recovered (inductionHypothesis wrote)
          · rename_i other
            split at wrote
            · rename_i fatal
              simp only [Option.some.injEq, Prod.mk.injEq] at wrote
              obtain ⟨rfl, rfl⟩ := wrote
              exact accounts_failed negative (by simp [unrecoverable, negative, fatal, other])
                pollInit
            · rename_i recovers
              have recovered : unrecoverable false err = false := by
                simp [unrecoverable, recovers]
              exact accounts_recovered negative recovered (inductionHypothesis wrote)
        · rename_i positive
          split at wrote
          · contradiction
          · rename_i fits
            exact accounts_accepted (Int.not_lt.mp positive) (Int.not_lt.mp fits)
              (inductionHypothesis wrote)
    | poll error output =>
      simp only [directWrite] at wrote
      split at wrote <;> simp at wrote
    | pcmState state =>
      simp only [directWrite] at wrote
      split at wrote <;> simp at wrote

/-- Whatever a call does with the later answers, it accounts for all of them. -/
def Passes (usePoll : Bool) (frameBytes : Nat) (answers rest : List Answer) : Prop :=
  ∀ buf size writtenSamples accepted result,
    Accounts usePoll frameBytes rest buf size writtenSamples accepted result →
      Accounts usePoll frameBytes answers buf size writtenSamples accepted result

/-- Answers that accept nothing and end no call are passed over. -/
theorem passes_of_same (accept : accepts answers = accepts rest)
    (fail : fails usePoll answers = fails usePoll rest) :
    Passes usePoll frameBytes answers rest := by
  rintro buf size writtenSamples accepted result ⟨count, within, taken, offered, ended⟩
  exact ⟨count, within, taken, accept ▸ offered, fail ▸ ended⟩

theorem Passes.trans {first second third : List Answer}
    (before : Passes usePoll frameBytes first second)
    (after : Passes usePoll frameBytes second third) : Passes usePoll frameBytes first third :=
  fun _ _ _ _ _ accounts => before _ _ _ _ _ (after _ _ _ _ _ accounts)

/-- A wait ends with output or with an error; the answers before that are passed over. -/
theorem waitForPoll_passes (waited : waitForPoll answers = some (err, rest)) :
    (err = 0 ∧ Passes usePoll frameBytes answers rest) ∨
      (err = -eio ∧ ∃ output, Passes usePoll frameBytes answers (.poll true output :: rest)) := by
  induction answers with
  | nil => contradiction
  | cons answer later inductionHypothesis =>
    cases answer with
    | poll error output =>
      cases error with
      | true =>
        simp only [waitForPoll, if_true, Option.some.injEq, Prod.mk.injEq] at waited
        obtain ⟨rfl, rfl⟩ := waited
        exact .inr ⟨rfl, output, passes_of_same rfl rfl⟩
      | false =>
        have ignored : Passes usePoll frameBytes (.poll false output :: later) later :=
          passes_of_same (by simp [accepts]) (by simp [fails])
        cases output with
        | true =>
          simp only [waitForPoll, Bool.false_eq_true, if_false, if_true, Option.some.injEq,
            Prod.mk.injEq] at waited
          obtain ⟨rfl, rfl⟩ := waited
          exact .inl ⟨rfl, ignored⟩
        | false =>
          simp only [waitForPoll, Bool.false_eq_true, if_false] at waited
          rcases inductionHypothesis waited with ⟨ready, passes⟩ | ⟨failed, output, passes⟩
          · exact .inl ⟨ready, ignored.trans passes⟩
          · exact .inr ⟨failed, output, ignored.trans passes⟩
    | writei result => contradiction
    | pcmState state => contradiction

/-- The error that is chosen by a second answer is one that is recovered from. -/
theorem chosenError_recovers {later : List Answer} {stateErr : Option Int}
    (chosen : chosenError later = some (stateErr, rest)) :
    ∃ recovers state, stateErr = some recovers ∧ xrunRecovery recovers = 0 ∧
      later = .pcmState state :: rest := by
  cases later with
  | nil => contradiction
  | cons answer later =>
    cases answer with
    | pcmState state =>
      simp only [chosenError, Option.some.injEq, Prod.mk.injEq] at chosen
      obtain ⟨rfl, rfl⟩ := chosen
      have recovered : xrunRecovery (if state = PcmState.xrun then -epipe else -estrpipe) = 0 := by
        rw [xrunRecovery, if_pos (by split <;> simp)]
      exact ⟨_, state, rfl, recovered, rfl⟩
    | writei result => contradiction
    | poll error output => contradiction

/-- After a failed wait the state either stands for an error that is recovered
from, or ends the call. -/
theorem stateError_passes {stateErr : Option Int} (output : Bool)
    (asked : stateError answers = some (stateErr, rest)) :
    (∃ recovers, stateErr = some recovers ∧ xrunRecovery recovers = 0 ∧
      Passes usePoll frameBytes (.poll true output :: answers) rest) ∨
      (stateErr = none ∧ accepts (.poll true output :: answers) = accepts rest ∧
        fails usePoll (.poll true output :: answers) = true) := by
  cases answers with
  | nil => contradiction
  | cons answer later =>
    cases answer with
    | pcmState first =>
      simp only [stateError] at asked
      split at asked
      · rename_i xrun
        subst xrun
        obtain ⟨recovers, chosen, rfl, recovered, rfl⟩ := chosenError_recovers asked
        exact .inl ⟨recovers, rfl, recovered,
          passes_of_same (by simp [accepts]) (by simp [fails])⟩
      · rename_i noXrun
        split at asked
        · rename_i second rest
          split at asked
          · rename_i suspended
            subst suspended
            obtain ⟨recovers, chosen, rfl, recovered, rfl⟩ := chosenError_recovers asked
            exact .inl ⟨recovers, rfl, recovered,
              passes_of_same (by simp [accepts]) (by simp [fails])⟩
          · rename_i running
            simp only [Option.some.injEq, Prod.mk.injEq] at asked
            obtain ⟨rfl, rfl⟩ := asked
            exact .inr ⟨rfl, by simp [accepts], by simp [fails, noXrun, running]⟩
        · contradiction
    | writei result => contradiction
    | poll error output => contradiction

/-- Answers that accept nothing and end the call leave it with what it had. -/
theorem accounts_ended (nothing : accepts answers = false) (failed : fails usePoll answers = true)
    {negative : Int} (below : negative < 0) (pollInit : Bool) :
    Accounts usePoll frameBytes answers buf size writtenSamples accepted
      ⟨negative, accepted, pollInit⟩ :=
  ⟨0, Nat.zero_le size, by simp, by simp [nothing], .inl ⟨failed, below⟩⟩

/-- The wait of `poll_write`, whose error is looked into, passes over its answers or ends
the call; `goOn` is what the call does after it, and `failure` what an error returns. -/
theorem wait_accounts (goOn : Bool → List Answer → Option (Written × List Answer))
    (failure : Int → Int) (negative : ∀ err, err < 0 → failure err < 0)
    (goesOn : ∀ pollInit answers, goOn pollInit answers = some (result, []) →
      Accounts true frameBytes answers buf size writtenSamples accepted result)
    (wrote : (match waitForPoll answers with
      | none => none
      | some (err, rest) =>
          if err < 0 then
            match stateError rest with
            | none => none
            | some (none, rest) => some (⟨failure err, accepted, pollInit⟩, rest)
            | some (some stateErr, rest) =>
                if xrunRecovery stateErr < 0 then some (⟨-1, accepted, pollInit⟩, rest)
                else goOn true rest
          else goOn pollInit rest) = some (result, [])) :
    Accounts true frameBytes answers buf size writtenSamples accepted result := by
  cases waits : waitForPoll answers with
  | none => simp [waits] at wrote
  | some waited =>
    obtain ⟨waitErr, later⟩ := waited
    simp only [waits] at wrote
    rcases waitForPoll_passes waits with ⟨rfl, passes⟩ | ⟨rfl, output, passes⟩
    · exact passes _ _ _ _ _ (goesOn _ _ wrote)
    · apply passes
      have below : -eio < 0 := by decide
      simp only [below, if_true] at wrote
      cases asks : stateError later with
      | none => simp [asks] at wrote
      | some told =>
        obtain ⟨stateErr, last⟩ := told
        simp only [asks] at wrote
        rcases stateError_passes output asks with
          ⟨recovers, rfl, zero, passes⟩ | ⟨rfl, same, failed⟩
        · simp only [zero, Int.lt_irrefl, if_false] at wrote
          exact passes _ _ _ _ _ (goesOn _ _ wrote)
        · simp only [Option.some.injEq, Prod.mk.injEq] at wrote
          obtain ⟨rfl, rfl⟩ := wrote
          exact accounts_ended same failed (negative _ below) _

/-- `poll_write` accounts for the frames that the device accepts in its loop. -/
theorem pollWriteLoop_accounts {fuel : Nat}
    (wrote : pollWriteLoop frameBytes fuel pollInit answers buf size writtenSamples accepted =
      some (result, [])) :
    Accounts true frameBytes answers buf size writtenSamples accepted result := by
  induction fuel generalizing pollInit answers buf size writtenSamples accepted with
  | zero => contradiction
  | succ fuel inductionHypothesis =>
    simp only [pollWriteLoop] at wrote
    split at wrote
    · simp only [Option.some.injEq, Prod.mk.injEq] at wrote
      obtain ⟨rfl, rfl⟩ := wrote
      exact accounts_end buf size pollInit
    · split at wrote
      · rename_i err rest
        split at wrote
        · rename_i negative
          split at wrote
          · rename_i fatal
            simp only [Option.some.injEq, Prod.mk.injEq] at wrote
            obtain ⟨rfl, rfl⟩ := wrote
            exact accounts_failed negative (by simp [unrecoverable, negative, fatal]) pollInit
          · rename_i recovers
            simp only [Option.some.injEq, Prod.mk.injEq] at wrote
            obtain ⟨rfl, rfl⟩ := wrote
            exact accounts_recovered negative (by simp [unrecoverable, recovers])
              (accounts_end buf size true)
        · rename_i positive
          split at wrote
          · contradiction
          · rename_i fits
            split at wrote
            · rename_i state rest
              refine accounts_accepted (Int.not_lt.mp positive) (Int.not_lt.mp fits) ?_
              have asked : Passes true frameBytes (.pcmState state :: rest) rest :=
                passes_of_same (by simp [accepts]) (by simp [fails])
              apply asked
              split at wrote
              · exact inductionHypothesis wrote
              · let goOn := fun pollInit answers =>
                  pollWriteLoop frameBytes fuel pollInit answers (buf.drop (err.toNat * frameBytes))
                    (size - err.toNat) (writtenSamples + err)
                    (accepted ++ buf.take (err.toNat * frameBytes))
                exact wait_accounts goOn id (fun _ below => below) (fun _ _ => inductionHypothesis) wrote
            · contradiction
      · contradiction

/-- `poll_write` accounts for the frames that the device accepts. -/
theorem pollWrite_accounts
    (wrote : pollWrite frameBytes pollInit answers buf size = some (result, [])) :
    Accounts true frameBytes answers buf size 0 [] result := by
  simp only [pollWrite] at wrote
  split at wrote
  · exact pollWriteLoop_accounts wrote
  · let goOn := fun pollInit answers =>
      pollWriteLoop frameBytes (answers.length + 1) pollInit answers buf size 0 []
    exact wait_accounts goOn (fun _ => -1) (by simp) (fun _ _ => pollWriteLoop_accounts) wrote

/-- Either write accounts for the frames that the device accepts. -/
theorem write_accounts
    (wrote : write usePoll frameBytes pollInit answers buf size = some result) :
    Accounts usePoll frameBytes answers buf size 0 [] result := by
  simp only [write] at wrote
  split at wrote
  · rename_i written returned
    obtain rfl := Option.some.inj wrote
    cases usePoll with
    | true => exact pollWrite_accounts returned
    | false => exact directWrite_accounts returned
  · contradiction

end Mprt.AlsaWrite
