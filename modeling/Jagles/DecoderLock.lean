import Jagles.CriticalSections
import Jagles.Decoder
import Jagles.GuardedRuns

set_option autoImplicit false
set_option linter.dupNamespace false

/-!
# The mutex of all decoders (`gDecoderMutex`)

Threads run `AnalystHeader`, `InitVideoDecoder` and `DecodeVideo` on any number of `JAMedia`
objects. `AnalystHeader` gives the mutex back before it returns, and `InitVideoDecoder`
goes on to open the decoder and unlocks once more.
-/
namespace Jagles.DecoderLock
open CriticalSections GuardedRuns

inductive Call where
  | analystHeader (k : KeyFrame)
  | initVideoDecoder (k : KeyFrame)
  | decodeVideo

/-- `init` says whether `AnalystHeader` returns to `InitVideoDecoder`. The states `header`,
`analysed`, `decode` and `decoded` lie between a lock and its unlock. -/
inductive Pc (M : Type) where
  | idle
  | headerLock (m : M) (k : KeyFrame) (init : Bool) (lw lh : ℤ)
  | header (m : M) (k : KeyFrame) (init : Bool) (lw lh : ℤ)
  | analysed (m : M) (k : KeyFrame) (init : Bool)
  | test (m : M) (k : KeyFrame)
  | opening (m : M) (k : KeyFrame)
  | allocated (m : M) (k : KeyFrame)
  | release
  | decodeLock (m : M)
  | decode (m : M)
  | decoded

def Pc.inside {M : Type} : Pc M → Bool
  | .header .. | .analysed .. | .decode _ | .decoded => true
  | _ => false

structure Shared (T M : Type) where
  owner : Option T
  pc : T → Pc M
  media : M → JAMedia

inductive Act (T M : Type) where
  | call (th : T) (m : M) (c : Call)
  | next (th : T)

variable {T M : Type}

def start (media : M → JAMedia) : Shared T M := ⟨none, fun _ => .idle, media⟩

section Model
variable [DecidableEq T]

def Shared.goto (s : Shared T M) (th : T) (pc : Pc M) : Shared T M :=
  { s with pc := Function.update s.pc th pc }

def Shared.lock (s : Shared T M) (th : T) (pc : Pc M) : Option (Shared T M) :=
  match s.owner with
  | none => some { s.goto th pc with owner := some th }
  | some _ => none

def Shared.unlock (s : Shared T M) (th : T) (pc : Pc M) : Shared T M :=
  { s.goto th pc with owner := none }

/-- A call up to its first lock. The size is parsed and `isVideoDecoderActive` is read
without the mutex. -/
def Shared.enter (s : Shared T M) (th : T) (m : M) : Call → Shared T M
  | .analystHeader k =>
    match k.analysed with
    | none => s
    | some (lw, lh) => s.goto th (.headerLock m k false lw lh)
  | .initVideoDecoder k =>
    match k.analysed with
    | none => s
    | some (lw, lh) => s.goto th (.headerLock m k true lw lh)
  | .decodeVideo => if (s.media m).isVideoDecoderActive then s.goto th (.decodeLock m) else s

variable [DecidableEq M] (avpicture_get_size : AVPixelFormat → ℤ → ℤ → ℤ)

def Shared.set (s : Shared T M) (m : M) (x : JAMedia) : Shared T M :=
  { s with media := Function.update s.media m x }

def Shared.proceed (s : Shared T M) (th : T) : Option (Shared T M) :=
  match s.pc th with
  | .idle => none
  | .headerLock m k init lw lh => s.lock th (.header m k init lw lh)
  | .header m k init lw lh =>
    some ((s.set m ((s.media m).analystLocked k lw lh)).goto th (.analysed m k init))
  | .analysed m k init => some (s.unlock th (if init then .test m k else .idle))
  | .test m k =>
    some (s.goto th (if (s.media m).isVideoDecoderActive then .idle else .opening m k))
  | .opening m k =>
    if k.found then
      some ((s.set m ((s.media m).allocate avpicture_get_size k)).goto th (.allocated m k))
    else some (s.unlock th .idle)
  | .allocated m k =>
    some ((if k.opens then s.set m ((s.media m).activate k) else s).goto th .release)
  | .release => some (s.unlock th .idle)
  | .decodeLock m => s.lock th (.decode m)
  | .decode _ => some (s.goto th .decoded)
  | .decoded => some (s.unlock th .idle)

def step (s : Shared T M) : Act T M → Option (Shared T M)
  | .call th m c =>
    match s.pc th with
    | .idle => some (s.enter th m c)
    | _ => none
  | .next th => s.proceed avpicture_get_size th

end Model

/-- The next step of the thread unlocks the mutex, or it is `InitVideoDecoder` changing
`mContext`, `mOutpic` and `mVideoBuffer`. -/
def Pc.needsLock {M : Type} : Pc M → Bool
  | .analysed .. | .opening .. | .release | .decoded => true
  | _ => false

def ByHolder (s : Shared T M) : Act T M → Prop
  | .call _ _ _ => True
  | .next th => (s.pc th).needsLock = true → s.owner = some th

def AtMostOne (s : Shared T M) : Prop :=
  ∀ th th', (s.pc th).inside = true → (s.pc th').inside = true → th = th'

/-- The condition on one step: it is not `InitVideoDecoder` going on after it has found
the decoder not active. -/
def NotOpening (s : Shared T M) : Act T M → Prop
  | .call _ _ _ => True
  | .next th => ∀ m k, s.pc th ≠ .opening m k

def Shared.view (s : Shared T M) : View T := ⟨s.owner, fun th => (s.pc th).inside⟩

variable {s t : Shared T M} {th : T}

/-- A thread inside `InitVideoDecoder` past its test. -/
def Pc.past {M : Type} : Pc M → Bool
  | .opening .. | .allocated .. | .release => true
  | _ => false

theorem Pc.inside_of_past {pc : Pc M} (h : pc.past = true) : pc.inside = false := by
  cases pc with
  | opening | allocated | release => rfl
  | _ => cases h

theorem Pc.inside_of_needsLock {pc : Pc M} (h : pc.needsLock = true) (hp : pc.past = false) :
    pc.inside = true := by
  cases pc with
  | analysed | decoded => rfl
  | opening | release => cases hp
  | _ => cases h

/-- The owner is the one thread inside, and no thread is past the first step after the test. -/
structure Guarded (s : Shared T M) : Prop where
  exclusive : Exclusive s.view
  past : ∀ th, (s.pc th).past = true → ∃ m k, s.pc th = .opening m k

theorem Guarded.not_past (g : Guarded s) (hn : ∀ m k, s.pc th ≠ .opening m k) :
    (s.pc th).past = false := by
  cases hp : (s.pc th).past with
  | false => rfl
  | true =>
    obtain ⟨m, k, hpc⟩ := g.past th hp
    exact absurd hpc (hn m k)

theorem Guarded.atMostOne (g : Guarded s) : AtMostOne s := by
  intro th th' h h'
  exact g.exclusive.eq h h'

theorem Guarded.byHolder {a : Act T M} (g : Guarded s) (hn : NotOpening s a) : ByHolder s a := by
  cases a with
  | call th m c => trivial
  | next th =>
    intro hneeds
    exact (g.exclusive th).mpr (Pc.inside_of_needsLock hneeds (g.not_past hn))

/-- A thread that goes on after the test never holds the mutex. -/
theorem notOpening_of_byHolder {a : Act T M} (e : OwnerInside s.view) (h : ByHolder s a) :
    NotOpening s a := by
  cases a with
  | call th m c => trivial
  | next th =>
    intro m k hpc
    have ho := h (by rw [hpc]; rfl)
    have hin : (s.pc th).inside = true := e th ho
    rw [hpc] at hin
    cases hin

section Turns
variable [DecidableEq T]

theorem lock_turn {pc : Pc M} (hpc : pc.inside = true) (h : s.lock th pc = some t) :
    Turn s.view t.view := by
  unfold Shared.lock at h
  split at h
  · rename_i hfree
    obtain rfl := Option.some.inj h
    exact Turn.acquire hfree hpc
  · cases h

theorem enter_cases (s : Shared T M) (th : T) (m : M) (c : Call) :
    s.enter th m c = s ∨ ∃ pc : Pc M, pc.inside = false ∧ pc.past = false ∧
      s.enter th m c = s.goto th pc := by
  cases c with
  | analystHeader k =>
    simp only [Shared.enter]
    split
    · exact .inl rfl
    · exact .inr ⟨_, rfl, rfl, rfl⟩
  | initVideoDecoder k =>
    simp only [Shared.enter]
    split
    · exact .inl rfl
    · exact .inr ⟨_, rfl, rfl, rfl⟩
  | decodeVideo =>
    simp only [Shared.enter]
    split
    · exact .inr ⟨_, rfl, rfl, rfl⟩
    · exact .inl rfl

theorem enter_turn (m : M) (c : Call) (h : s.pc th = .idle) :
    Turn s.view (s.enter th m c).view := by
  rcases enter_cases s th m c with he | ⟨pc, hin, -, he⟩
  · rw [he]
    exact .keep _
  · rw [he]
    exact Turn.goto (by rw [h, hin]; rfl)

theorem Guarded.update_past (g : Guarded s) {pc : Pc M}
    (h : pc.past = true → ∃ m k, pc = .opening m k) :
    ∀ u, (Function.update s.pc th pc u).past = true →
      ∃ m k, Function.update s.pc th pc u = .opening m k := by
  intro u hu
  by_cases hut : u = th
  · subst hut
    rw [Function.update_self] at hu ⊢
    exact h hu
  · rw [Function.update_of_ne hut] at hu ⊢
    exact g.past u hu

variable [DecidableEq M] {avpicture_get_size : AVPixelFormat → ℤ → ℤ → ℤ}

/-- A thread that is not past the test takes a turn at the mutex. -/
theorem proceed_turn (hp : (s.pc th).past = false)
    (h : s.proceed avpicture_get_size th = some t) : Turn s.view t.view := by
  unfold Shared.proceed at h
  split at h
  case h_1 => cases h
  case h_2 => exact lock_turn rfl h
  case h_3 m k init lw lh hpc =>
    obtain rfl := Option.some.inj h
    exact Turn.goto (by change true = (s.pc th).inside; rw [hpc]; rfl)
  case h_4 m k init hpc =>
    obtain rfl := Option.some.inj h
    exact Turn.give (by rw [hpc]; rfl) (by cases init <;> rfl)
  case h_5 m k hpc =>
    obtain rfl := Option.some.inj h
    refine Turn.goto ?_
    rw [hpc]
    split <;> rfl
  case h_6 hpc => rw [hpc] at hp; cases hp
  case h_7 hpc => rw [hpc] at hp; cases hp
  case h_8 hpc => rw [hpc] at hp; cases hp
  case h_9 => exact lock_turn rfl h
  case h_10 m hpc =>
    obtain rfl := Option.some.inj h
    exact Turn.goto (by rw [hpc]; rfl)
  case h_11 hpc =>
    obtain rfl := Option.some.inj h
    exact Turn.give (by rw [hpc]; rfl) rfl

/-- Past the test the mutex is only ever given back, by a thread that is not inside. -/
theorem proceed_past (hp : (s.pc th).past = true) (e : OwnerInside s.view)
    (h : s.proceed avpicture_get_size th = some t) : OwnerInside t.view := by
  have hout := Pc.inside_of_past hp
  have hgoto : ∀ (s' : Shared T M) (pc : Pc M), s'.owner = s.owner → s'.pc = s.pc →
      pc.inside = false → OwnerInside (s'.goto th pc).view := by
    intro s' pc ho hs hpc
    have hkeep : Turn s.view (s'.goto th pc).view := by
      obtain ⟨owner, pc', media⟩ := s'
      cases ho
      cases hs
      exact Turn.goto (by rw [hout]; exact hpc)
    exact e.turn hkeep
  unfold Shared.proceed at h
  split at h
  case h_6 m k hpc =>
    split at h
    · obtain rfl := Option.some.inj h
      exact hgoto _ _ rfl rfl rfl
    · obtain rfl := Option.some.inj h
      exact .stray _
  case h_7 m k hpc =>
    obtain rfl := Option.some.inj h
    split
    · exact hgoto _ _ rfl rfl rfl
    · exact hgoto _ _ rfl rfl rfl
  case h_8 hpc =>
    obtain rfl := Option.some.inj h
    exact .stray _
  all_goals
    rename_i hpc
    rw [hpc] at hp
    cases hp

theorem step_ownerInside {a : Act T M} (e : OwnerInside s.view)
    (h : step avpicture_get_size s a = some t) : OwnerInside t.view := by
  cases a with
  | call th m c =>
    simp only [step] at h
    split at h
    · rename_i hpc
      obtain rfl := Option.some.inj h
      exact e.turn (enter_turn m c hpc)
    · cases h
  | next th =>
    cases hp : (s.pc th).past with
    | true => exact proceed_past hp e h
    | false => exact e.turn (proceed_turn hp h)

/-- Only a thread past the test comes to `allocated` or `release`. -/
theorem proceed_pc (hp : (s.pc th).past = false) (h : s.proceed avpicture_get_size th = some t) :
    ∃ pc : Pc M, t.pc = Function.update s.pc th pc ∧
      (pc.past = true → ∃ m k, pc = .opening m k) := by
  unfold Shared.proceed Shared.lock at h
  split at h
  case h_1 => cases h
  case h_2 =>
    split at h
    · obtain rfl := Option.some.inj h
      exact ⟨_, rfl, by simp [Pc.past]⟩
    · cases h
  case h_3 =>
    obtain rfl := Option.some.inj h
    exact ⟨_, rfl, by simp [Pc.past]⟩
  case h_4 m k init hpc =>
    obtain rfl := Option.some.inj h
    refine ⟨_, rfl, ?_⟩
    cases init <;> simp [Pc.past]
  case h_5 m k hpc =>
    obtain rfl := Option.some.inj h
    refine ⟨_, rfl, ?_⟩
    split
    · simp [Pc.past]
    · intro _
      exact ⟨m, k, rfl⟩
  case h_6 hpc => rw [hpc] at hp; cases hp
  case h_7 hpc => rw [hpc] at hp; cases hp
  case h_8 hpc => rw [hpc] at hp; cases hp
  case h_9 =>
    split at h
    · obtain rfl := Option.some.inj h
      exact ⟨_, rfl, by simp [Pc.past]⟩
    · cases h
  case h_10 =>
    obtain rfl := Option.some.inj h
    exact ⟨_, rfl, by simp [Pc.past]⟩
  case h_11 =>
    obtain rfl := Option.some.inj h
    exact ⟨_, rfl, by simp [Pc.past]⟩

theorem Guarded.step {a : Act T M} (g : Guarded s) (hn : NotOpening s a)
    (h : step avpicture_get_size s a = some t) : Guarded t := by
  cases a with
  | call th m c =>
    simp only [DecoderLock.step] at h
    split at h
    · rename_i hpc
      obtain rfl := Option.some.inj h
      refine ⟨g.exclusive.turn (enter_turn m c hpc), ?_⟩
      rcases enter_cases s th m c with he | ⟨pc, -, hp, he⟩
      · rw [he]
        exact g.past
      · rw [he]
        exact g.update_past (fun hopen => by rw [hp] at hopen; cases hopen)
    · cases h
  | next th =>
    have hp := g.not_past hn
    refine ⟨g.exclusive.turn (proceed_turn hp h), ?_⟩
    obtain ⟨pc, hpc, hopen⟩ := proceed_pc hp h
    rw [hpc]
    exact g.update_past hopen

end Turns

/-- In every run the unlocks and the changes of `InitVideoDecoder` are made by the holder
of the mutex, with at most one thread inside, exactly when no `InitVideoDecoder` goes on
after it has found the decoder not active. -/
theorem decoder_mutex_respected_iff [DecidableEq T] [DecidableEq M]
    (avpicture_get_size : AVPixelFormat → ℤ → ℤ → ℤ) (media : M → JAMedia)
    (acts : List (Act T M)) (t : Shared T M) :
    Run (step avpicture_get_size) (fun s a => ByHolder s a ∧ AtMostOne s) (start media) acts t ∧
        AtMostOne t ↔
      Run (step avpicture_get_size) NotOpening (start media) acts t := by
  constructor
  · rintro ⟨hrun, -⟩
    refine hrun.guarded (fun s => OwnerInside s.view) ?_ ?_ (.stray _)
    · intro s a u e _ hs
      exact step_ownerInside e hs
    · intro s a e hc
      exact notOpening_of_byHolder e hc.1
  · intro hrun
    have hstart : Guarded (start media : Shared T M) := by
      refine ⟨?_, ?_⟩
      · intro th
        simp [start, Shared.view, Pc.inside]
      · intro th hp
        cases hp
    have hkeep : ∀ (s : Shared T M) a u, Guarded s → NotOpening s a →
        step avpicture_get_size s a = some u → Guarded u := by
      intro s a u g hn hs
      exact g.step hn hs
    refine ⟨hrun.guarded Guarded hkeep ?_ hstart, (hrun.invariant Guarded hkeep hstart).atMostOne⟩
    intro s a g hn
    exact ⟨g.byHolder hn, g.atMostOne⟩

def parsedKey : KeyFrame := Decoding.keyFrame .H264 640 360

/-- The second unlock of `InitVideoDecoder` frees the mutex that another thread holds, and a
third thread comes in. -/
theorem second_unlock_lets_two_in : ¬ ∀ (media : Fin 3 → JAMedia) (acts : List (Act (Fin 3) (Fin 3)))
    (t : Shared (Fin 3) (Fin 3)),
    Run (step Decoding.pictureSize) (fun _ _ => True) (start media) acts t →
      Run (step Decoding.pictureSize) (fun s a => ByHolder s a ∧ AtMostOne s) (start media) acts t ∧
        AtMostOne t := by
  intro hall
  obtain ⟨t, hrun, h1, h2⟩ : ∃ t : Shared (Fin 3) (Fin 3),
      Run (step Decoding.pictureSize) (fun _ _ => True) (start fun _ => .create)
        [.call 0 0 (.initVideoDecoder parsedKey), .next 0, .next 0, .next 0, .next 0, .next 0,
          .call 1 1 (.analystHeader parsedKey), .next 1, .next 0, .next 0,
          .call 2 2 (.analystHeader parsedKey), .next 2] t ∧
      (t.pc 1).inside = true ∧ (t.pc 2).inside = true :=
    exists_run (by decide +kernel)
  have hone := (hall _ _ t hrun).2 1 2 h1 h2
  exact absurd hone (by decide)

end Jagles.DecoderLock
