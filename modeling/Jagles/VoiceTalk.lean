import Jagles.GuardedRuns

set_option autoImplicit false
set_option linter.dupNamespace false

/-!
# Voice intercom (`VoiceHelper`)

The UI thread calls `startTalking` and `endTalking`; each session has a send task and a record
task of its own. `ThreadPool.execute` runs each task on a new pool, so that every task may
begin at any time. Each access to a shared field is a step.
-/
namespace Jagles.VoiceTalk

/-- The next statement of `startTalking` (the first three after `idle`) or `endTalking`; the
last three are its exception handler. -/
inductive UiAt where
  | idle
  | flag
  | executeSend
  | executeRecord (k : ℕ)
  | unflag
  | stopRecord
  | test
  | stop
  | release
  | forget
  | hangUp
  | drop
  | stopSend
  deriving DecidableEq

/-- The next statement of the send task; `absent` before it is executed. -/
inductive SendAt where
  | absent
  | call
  | enable
  | loop
  | poll
  | send (packet : ℕ)
  | testRecorder
  | testQueue
  | disable
  | hangUp
  | clear
  | done
  deriving DecidableEq

/-- The next statement of the record task. `encode` holds the number of the read whose sound
is to be encoded, `add` the sound that was. -/
inductive RecordAt where
  | absent
  | flag
  | test
  | buffer
  | make
  | fetch
  | start (recorder : ℕ)
  | clear
  | loop
  | check
  | reader
  | read (recorder : ℕ)
  | encode (n : ℕ)
  | add (packet : ℕ)
  | done
  deriving DecidableEq

/-- Sound is the number of the read it came from, 0 in a new buffer. A recorder is `usable`
from its construction, where that succeeded, to its `release`. `sessions` counts the calls of
`startTalking`. The fields behind it only record: the sessions whose `callDeviceAudio`
succeeded, the hang-ups since then, the starts of the microphone after `endTalking`, and the
packets sent. -/
structure VoiceHelper where
  isRecord : Bool
  isStartRecord : Bool
  isSendAudio : Bool
  mRecorder : Option ℕ
  pcm : ℕ
  audioQueue : List ℕ
  usable : ℕ → Bool
  recorders : ℕ
  reads : ℕ
  uiAt : UiAt
  sendAt : ℕ → SendAt
  recordAt : ℕ → RecordAt
  sessions : ℕ
  called : ℕ → Bool
  hangUps : ℕ → ℕ
  startedLate : ℕ
  sent : List ℕ

namespace VoiceHelper

def create (usable : Bool) : VoiceHelper where
  isRecord := false
  isStartRecord := false
  isSendAudio := false
  mRecorder := some 0
  pcm := 0
  audioQueue := []
  usable r := r = 0 ∧ usable
  recorders := 1
  reads := 0
  uiAt := .idle
  sendAt _ := .absent
  recordAt _ := .absent
  sessions := 0
  called _ := false
  hangUps _ := 0
  startedLate := 0
  sent := []

variable (s : VoiceHelper)

/-- `handUpDeviceAudio`, for the call of a session. -/
def handUp (k : ℕ) : VoiceHelper :=
  { s with hangUps := Function.update s.hangUps k (s.hangUps k + if s.called k then 1 else 0) }

/-! ## The UI thread -/

def ui : Option VoiceHelper :=
  match s.uiAt with
  | .idle => none
  | .flag => some { s with isRecord := true, uiAt := .executeSend }
  | .executeSend =>
    some { s with
      sendAt := Function.update s.sendAt s.sessions .call
      sessions := s.sessions + 1
      uiAt := .executeRecord s.sessions }
  | .executeRecord k =>
    some { s with recordAt := Function.update s.recordAt k .flag, uiAt := .idle }
  | .unflag => some { s with isRecord := false, uiAt := .stopRecord }
  | .stopRecord => some { s with isStartRecord := false, uiAt := .test }
  | .test => some { s with uiAt := if s.mRecorder = none then .forget else .stop }
  | .stop =>
    some { s with uiAt := if s.mRecorder.any s.usable then .release else .hangUp }
  | .release =>
    match s.mRecorder with
    | none => some { s with uiAt := .hangUp }
    | some r => some { s with usable := Function.update s.usable r false, uiAt := .forget }
  | .forget => some { s with mRecorder := none, uiAt := .idle }
  | .hangUp => some { s.handUp (s.sessions - 1) with uiAt := .drop }
  | .drop => some { s with mRecorder := none, uiAt := .stopSend }
  | .stopSend => some { s with isSendAudio := false, uiAt := .idle }

/-! ## The send task -/

def goSend (k : ℕ) (p : SendAt) : VoiceHelper :=
  { s with sendAt := Function.update s.sendAt k p }

/-- `ret` is the result of `callDeviceAudio`. -/
def send (k : ℕ) (ret : ℤ) : Option VoiceHelper :=
  match s.sendAt k with
  | .absent | .done => none
  | .call =>
    if ret = 0 then
      some { s.goSend k .enable with called := Function.update s.called k true }
    else some (s.goSend k .loop)
  | .enable => some { s.goSend k .loop with isSendAudio := true }
  | .loop => some (s.goSend k (if s.isSendAudio then .poll else .disable))
  | .poll =>
    match s.audioQueue with
    | [] => some (s.goSend k .testRecorder)
    | packet :: rest => some { s.goSend k (.send packet) with audioQueue := rest }
  | .send packet => some { s.goSend k .testRecorder with sent := s.sent ++ [packet] }
  | .testRecorder => some (s.goSend k (if s.mRecorder = none then .testQueue else .loop))
  | .testQueue => some (s.goSend k (if s.audioQueue = [] then .disable else .loop))
  | .disable => some { s.goSend k .hangUp with isSendAudio := false }
  | .hangUp => some ((s.goSend k .clear).handUp k)
  | .clear => some { s.goSend k .done with audioQueue := [] }

/-! ## The record task -/

def goRecord (k : ℕ) (p : RecordAt) : VoiceHelper :=
  { s with recordAt := Function.update s.recordAt k p }

/-- `ok` says whether a new recorder is usable, `readSize` is the result of a read. A null
`mRecorder` ends the task with an exception. -/
def record (k : ℕ) (ok : Bool) (readSize : ℤ) : Option VoiceHelper :=
  match s.recordAt k with
  | .absent | .done => none
  | .flag => some { s.goRecord k .test with isStartRecord := true }
  | .test => some (s.goRecord k (if s.mRecorder = none then .buffer else .fetch))
  | .buffer => some { s.goRecord k .make with pcm := 0 }
  | .make =>
    some { s.goRecord k .fetch with
      mRecorder := some s.recorders
      usable := Function.update s.usable s.recorders ok
      recorders := s.recorders + 1 }
  | .fetch =>
    match s.mRecorder with
    | none => some (s.goRecord k .done)
    | some r => some (s.goRecord k (.start r))
  | .start r =>
    if s.usable r then
      some { s.goRecord k .clear with
        startedLate := s.startedLate + if s.uiAt = .idle ∧ s.isRecord = false then 1 else 0 }
    else some (s.goRecord k .done)
  | .clear => some { s.goRecord k .loop with audioQueue := [] }
  | .loop => some (s.goRecord k (if s.isStartRecord then .check else .done))
  | .check => some (s.goRecord k (if s.mRecorder = none then .done else .reader))
  | .reader =>
    match s.mRecorder with
    | none => some (s.goRecord k .done)
    | some r => some (s.goRecord k (.read r))
  | .read _ =>
    if 0 < readSize then
      some { s.goRecord k (if 0 < readSize / 2 then .encode (s.reads + 1) else .loop) with
        pcm := s.reads + 1
        reads := s.reads + 1 }
    else some (s.goRecord k .loop)
  | .encode _ => some (s.goRecord k (.add s.pcm))
  | .add packet => some { s.goRecord k .loop with audioQueue := s.audioQueue ++ [packet] }

end VoiceHelper

/-! ## Steps -/

/-- `ui`, `send` and `record` are the next statement of a thread. -/
inductive Label where
  | startTalking
  | endTalking
  | ui
  | send (k : ℕ) (ret : ℤ)
  | record (k : ℕ) (ok : Bool) (readSize : ℤ)

def step (s : VoiceHelper) : Label → Option VoiceHelper
  | .startTalking => if s.uiAt = .idle then some { s with uiAt := .flag } else none
  | .endTalking => if s.uiAt = .idle then some { s with uiAt := .unflag } else none
  | .ui => s.ui
  | .send k ret => s.send k ret
  | .record k ok readSize => s.record k ok readSize

end Jagles.VoiceTalk
