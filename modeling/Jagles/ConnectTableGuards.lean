import Jagles.ConnectTable
import Jagles.GuardedRuns

set_option autoImplicit false
set_option linter.dupNamespace false

/-!
# Guards of the connector table

Which of the operations of `ConnectManager` keep to the table and to filled slots, and leave
the manager alone otherwise: for each one, the states in which it does.
-/
namespace Jagles.ConnectTable
open SlotTables GuardedRuns ConnectManager

variable {JAConnect α : Type}

/-- No fault, and no change for an index without a connection. -/
def Guarded (J : JAConnectClass JAConnect) (s : ConnectManager JAConnect)
    (op : Operation JAConnect α) : Prop :=
  ∃ a t, op.perform J s = .ok (a, t) ∧
    ∀ index, op.index = some index → ¬ Filled (connectors JAConnect) s index → t = s

/-- When an operation is guarded. Most are, in every state. -/
def Allowed (s : ConnectManager JAConnect) : Operation JAConnect α → Prop
  | .GetRealStatus index => Inside MAX_CONN index
  | .GetfishEyeParam chl_index _ => Inside MAX_CONN chl_index
  | .GetDistTortion chl_index => Inside MAX_CONN chl_index
  | .ConnectFirst _ _ index => Inside MAX_CONN index → Filled (connectors JAConnect) s index
  | .Connect _ _ index _ => Inside MAX_CONN index → Filled (connectors JAConnect) s index
  | .PtzCtrl _ _ index => Inside MAX_CONN index → Filled (connectors JAConnect) s index
  | .IsCrop index => Inside MAX_CONN index → Filled (connectors JAConnect) s index
  | .IsWallMode index => Inside MAX_CONN index → Filled (connectors JAConnect) s index
  | .EnableCrop index => Inside MAX_CONN index → Filled (connectors JAConnect) s index
  | .DisableCrop index => Inside MAX_CONN index → Filled (connectors JAConnect) s index
  | .GetDecoder index => Inside MAX_CONN index → Filled (connectors JAConnect) s index
  | .PlaybackPauseGetData _ index => Inside MAX_CONN index → Filled (connectors JAConnect) s index
  | .PlaybackContinueGetData _ index =>
    Inside MAX_CONN index → Filled (connectors JAConnect) s index
  | .FinishDeviceFileTransfer idx => Inside 33 idx → Filled (connectors JAConnect) s idx
  | .SetTimeZone _ index => index ≠ 36
  | .PlayAudio index => Filled (connectors JAConnect) s index ∨ index = s._audioIndex
  | .DoDownloadFile _ _ _ file_path index =>
    Filled (connectors JAConnect) s index ∨ file_path = s.DownLoadFile_path
  | .GetFileDownloadList idx => Filled (connectors JAConnect) s idx ∨ s.mIsDownloading = true ∨
      ¬ Filled (connectors JAConnect) s 0
  | _ => True

theorem inside_iff (index : ℤ) : Inside MAX_CONN index ↔ 0 ≤ index ∧ index < 36 := Iff.rfl

section Families
variable {J : JAConnectClass JAConnect} {s : ConnectManager JAConnect} {index : ℤ}

theorem send_serves (index : ℤ) (m : Method α) :
    Serves (connectors JAConnect) (send J index m) index := call_serves index _

theorem some_send_serves (index : ℤ) (m : Method α) :
    Serves (connectors JAConnect) (some <$> send J index m) index := by
  rw [map_eq_pure_bind]
  exact (send_serves index m).bind fun a => Serves.pure _ _

theorem look_serves (index : ℤ) :
    Serves (connectors JAConnect) (look (connectors JAConnect) index) index :=
  fun s h => ⟨_, s, look_inside h.1 s, h⟩

theorem sendGuarded_guarded (invalid empty : α) (m : Method α) :
    SlotTables.Guarded (connectors JAConnect) (sendGuarded J index invalid empty m) index s :=
  guarded_both (send_serves index m)

theorem sendUnended_guarded (invalid : α) (m : Method α) :
    SlotTables.Guarded (connectors JAConnect) (sendUnended J index invalid m) index s :=
  guarded_both (some_send_serves index m)

theorem sendFilled_guarded_iff (empty : α) (m : Method α) :
    SlotTables.Guarded (connectors JAConnect) (sendFilled J index empty m) index s ↔
      Inside MAX_CONN index := guarded_ifFilled_iff (send_serves index m)

theorem sendInside_guarded_iff (invalid : α) (m : Method α) :
    SlotTables.Guarded (connectors JAConnect) (sendInside J index invalid m) index s ↔
      (Inside MAX_CONN index → Filled (connectors JAConnect) s index) :=
  guarded_ifInside_iff.trans (imp_congr_right fun _ => guarded_call_iff)

end Families

/-! ## Operations with their own checks -/

section Own
variable {J : JAConnectClass JAConnect} {s : ConnectManager JAConnect} {index : ℤ}

theorem getConnectCtx_guarded :
    SlotTables.Guarded (connectors JAConnect) (getConnectCtx index) index s :=
  guarded_ifInside_iff.mpr fun hin => ⟨_, s, look_inside hin s, fun _ => rfl⟩

theorem stopPlaying_serves (index : ℤ) :
    Serves (connectors JAConnect) (stopPlaying index : M JAConnect Unit) index := by
  intro s h
  obtain ⟨hin, hsome⟩ := h
  refine ⟨(), _, dif_pos hin, hin, ?_⟩
  change Option.isSome ((s.setSlot (place hin) _)._connector (place hin)).conn = true
  rw [setSlot_same]
  exact hsome

/-- What `connect` does with the connection of a filled slot. -/
theorem connect_rest_serves (connectstr verifystr : CharPtr) (index channel : ℤ) :
    Serves (connectors JAConnect) (do
      send J index .CleanBuffer
      send J index (.Connect connectstr verifystr channel)
      stopPlaying index
      pure (some index)) index :=
  (send_serves index _).bind fun _ => (send_serves index _).bind fun _ =>
    (stopPlaying_serves index).bind fun _ => Serves.pure _ _

theorem fill_ok (hin : Inside MAX_CONN index) :
    ∃ t, fill J index s = .ok ((), t) ∧ Filled (connectors JAConnect) t index := by
  refine ⟨_, dif_pos hin, hin, ?_⟩
  change Option.isSome ((s.setSlot (place hin) _)._connector (place hin)).conn = true
  rw [setSlot_same]
  rfl

/-- An index of the table leaves a connection behind. -/
theorem connect_ok (connectstr verifystr : CharPtr) (channel : ℤ)
    (hin : Inside MAX_CONN index) :
    ∃ a t, connect J connectstr verifystr index channel s = .ok (a, t) ∧
      Filled (connectors JAConnect) t index := by
  have hrest := connect_rest_serves (J := J) connectstr verifystr index channel
  unfold connect
  rw [ifInside_inside hin, bind_ok _ (look_inside hin s)]
  by_cases hfilled : Filled (connectors JAConnect) s index
  · obtain ⟨a, t, he, ht⟩ := hrest s hfilled
    refine ⟨a, t, ?_, ht⟩
    rw [if_neg (by rw [Option.isNone_eq_false_iff.mpr hfilled.2]; simp)]
    exact he
  · obtain ⟨u, hu, hfill⟩ := fill_ok (J := J) (s := s) hin
    obtain ⟨a, t, he, ht⟩ := hrest u hfill
    refine ⟨a, t, ?_, ht⟩
    rw [if_pos (Option.isNone_iff_eq_none.mpr
      (Option.not_isSome_iff_eq_none.mp fun hsome => hfilled ⟨hin, hsome⟩)), bind_ok _ hu]
    exact he

theorem connect_guarded_iff (connectstr verifystr : CharPtr) (channel : ℤ) :
    SlotTables.Guarded (connectors JAConnect) (connect J connectstr verifystr index channel)
        index s ↔ (Inside MAX_CONN index → Filled (connectors JAConnect) s index) := by
  by_cases hin : Inside MAX_CONN index
  · obtain ⟨a, t, he, ht⟩ := connect_ok (J := J) (s := s) connectstr verifystr channel hin
    rw [forall_prop_of_true hin]
    constructor
    · rintro ⟨a', t', he', hkeep⟩
      by_contra hempty
      obtain ⟨-, rfl⟩ := Prod.mk.inj (Except.ok.inj (he.symm.trans he'))
      exact hempty (hkeep hempty ▸ ht)
    · exact fun hfilled => ⟨a, t, he, fun hempty => absurd hfilled hempty⟩
  · rw [connect, ifInside_outside hin]
    exact iff_of_true (guarded_pure _ _ _) fun h => absurd h hin

/-- The states in which `operateDeviceFile` begins a transfer. -/
def Starts (s : ConnectManager JAConnect) (idx : ℤ) : Prop :=
  Inside 33 idx ∧ Filled (connectors JAConnect) s idx ∧ s.mIsDownloading = false

theorem operateDeviceFile_cases (opType opFlag : ℤ) (fp savePath : CharPtr) (idx : ℤ)
    (s : ConnectManager JAConnect) :
    ¬ Starts s idx ∧ (∃ a, operateDeviceFile J opType opFlag fp savePath idx s = .ok (a, s)) ∨
    Starts s idx ∧ ∃ a t, operateDeviceFile J opType opFlag fp savePath idx s = .ok (a, t) ∧
      t.mIsDownloading = true := by
  unfold operateDeviceFile
  by_cases hout : idx > 32 ∨ idx < 0
  · rw [if_pos hout]
    refine .inl ⟨fun h => ?_, -1, rfl⟩
    have hin := h.1
    unfold Inside at hin
    omega
  · rw [if_neg hout]
    have hin : Inside MAX_CONN idx := (inside_iff idx).mpr (by omega)
    rw [bind_ok _ (look_inside hin s), bind_ok (a := s) (t := s) _ rfl]
    by_cases hstart : Starts s idx
    · obtain ⟨h33, hfilled, hidle⟩ := hstart
      refine .inr ⟨⟨h33, hfilled, hidle⟩, ?_⟩
      rw [if_pos (by rw [hidle, hfilled.2]; rfl)]
      rw [bind_ok (a := ()) (t := startDownload savePath s) _ rfl]
      rcases call_cases (T := connectors JAConnect) idx (J.run (.OperateDeviceFile opType opFlag fp))
        (startDownload savePath s) with ⟨_, c, -, he⟩ | ⟨hempty, -⟩
      · exact ⟨0, _, bind_ok _ he, rfl⟩
      · exact absurd hfilled hempty
    · refine .inl ⟨hstart, 0, ?_⟩
      rw [if_neg]
      · rfl
      · intro hboth
        rw [Bool.and_eq_true, Bool.not_eq_true'] at hboth
        exact hstart ⟨by unfold Inside; omega, ⟨hin, hboth.2⟩, hboth.1⟩

theorem operateDeviceFile_guarded (opType opFlag : ℤ) (fp savePath : CharPtr) :
    SlotTables.Guarded (connectors JAConnect)
      (operateDeviceFile J opType opFlag fp savePath index) index s := by
  rcases operateDeviceFile_cases (J := J) opType opFlag fp savePath index s with
    ⟨-, a, he⟩ | ⟨hstart, a, t, he, -⟩
  · exact ⟨a, s, he, fun _ => rfl⟩
  · exact ⟨a, t, he, fun hempty => absurd hstart.2.1 hempty⟩

theorem getFileDownloadList_guarded_iff :
    SlotTables.Guarded (connectors JAConnect) (getFileDownloadList J index) index s ↔
      Filled (connectors JAConnect) s index ∨ s.mIsDownloading = true ∨
        ¬ Filled (connectors JAConnect) s 0 := by
  unfold getFileDownloadList
  have hzero : Inside 33 0 := by unfold Inside; omega
  rcases operateDeviceFile_cases (J := J) 0 0 none none 0 s with
    ⟨hidle, a, he⟩ | ⟨⟨-, hfilled, hidle⟩, a, t, he, ht⟩
  · refine iff_of_true ⟨none, s, bind_ok _ he, fun _ => rfl⟩ ?_
    by_cases hdown : s.mIsDownloading = true
    · exact .inr (.inl hdown)
    · exact .inr (.inr fun hfilled => hidle ⟨hzero, hfilled, Bool.eq_false_iff.mpr hdown⟩)
  · constructor
    · rintro ⟨a', t', he', hkeep⟩
      by_contra hno
      obtain ⟨-, rfl⟩ := Prod.mk.inj (Except.ok.inj ((bind_ok _ he).symm.trans he'))
      rw [hkeep fun h => hno (.inl h), hidle] at ht
      cases ht
    · rintro (h | h | h)
      · exact ⟨none, t, bind_ok _ he, fun hempty => absurd h hempty⟩
      · rw [hidle] at h
        cases h
      · exact absurd hfilled h

theorem doDownloadFile_guarded_iff (opType opFlag : ℤ) (fp file_path : CharPtr) :
    SlotTables.Guarded (connectors JAConnect)
        (doDownloadFile J opType opFlag fp file_path index) index s ↔
      Filled (connectors JAConnect) s index ∨ file_path = s.DownLoadFile_path := by
  unfold doDownloadFile
  obtain ⟨u, hu⟩ : ∃ u, u = { s with DownLoadFile_path := file_path } := ⟨_, rfl⟩
  have hset : (modify fun s => { s with DownLoadFile_path := file_path } :
      M JAConnect Unit) s = .ok ((), u) := by rw [hu]; rfl
  have hsame : Filled (connectors JAConnect) u index ↔ Filled (connectors JAConnect) s index := by
    rw [hu]
    exact Iff.rfl
  rw [SlotTables.Guarded, bind_ok _ hset]
  rcases operateDeviceFile_cases (J := J) opType opFlag fp file_path index u with
    ⟨-, a, he⟩ | ⟨hstart, a, t, he, -⟩
  · rw [bind_ok _ he]
    constructor
    · rintro ⟨a', t', he', hkeep⟩
      by_cases hfilled : Filled (connectors JAConnect) s index
      · exact .inl hfilled
      · obtain ⟨-, rfl⟩ := Prod.mk.inj (Except.ok.inj he')
        have hpath := congrArg ConnectManager.DownLoadFile_path (hkeep hfilled)
        rw [hu] at hpath
        exact .inr hpath
    · rintro (hfilled | hpath)
      · exact ⟨(), u, rfl, fun hempty => absurd hfilled hempty⟩
      · exact ⟨(), u, rfl, fun _ => by rw [hu, hpath]⟩
  · have hfilled := hsame.mp hstart.2.1
    exact iff_of_true ⟨(), t, bind_ok _ he, fun hempty => absurd hfilled hempty⟩ (.inl hfilled)

theorem finishDeviceFileTransfer_guarded_iff :
    SlotTables.Guarded (connectors JAConnect) (finishDeviceFileTransfer J index) index s ↔
      (Inside 33 index → Filled (connectors JAConnect) s index) := by
  unfold finishDeviceFileTransfer
  by_cases hout : index < 0 ∨ index > 32
  · rw [if_pos hout]
    refine iff_of_true (guarded_pure _ _ _) fun hin => ?_
    unfold Inside at hin
    omega
  · rw [if_neg hout, forall_prop_of_true (by unfold Inside; omega)]
    by_cases hfilled : Filled (connectors JAConnect) s index
    · obtain ⟨a, t, he, -⟩ := send_serves (J := J) index .DestroyDownloadVcon s hfilled
      refine iff_of_true ⟨0, finishDownload t, ?_, fun hempty => absurd hfilled hempty⟩ hfilled
      rw [bind_ok _ he]
      rfl
    · refine iff_of_false ?_ hfilled
      rcases call_cases (T := connectors JAConnect) index (J.run .DestroyDownloadVcon) s with
        ⟨hin, c, hc, -⟩ | ⟨-, e, he⟩
      · exact absurd ⟨hin, by rw [hc]; rfl⟩ hfilled
      · exact not_guarded_of_error (bind_error _ he)

theorem setTimeZone_guarded_iff (pTimeZone : UInt32) :
    SlotTables.Guarded (connectors JAConnect) (setTimeZone J pTimeZone index) index s ↔
      index ≠ 36 := by
  unfold setTimeZone
  by_cases hout : index < 0 ∨ index > 36
  · rw [if_pos hout]
    exact iff_of_true (guarded_pure _ _ _) (by omega)
  · rw [if_neg hout, sendFilled_guarded_iff, inside_iff]
    omega

theorem playAudio_guarded_iff :
    SlotTables.Guarded (connectors JAConnect) (playAudio index) index s ↔
      Filled (connectors JAConnect) s index ∨ index = s._audioIndex := by
  constructor
  · rintro ⟨a, t, he, hkeep⟩
    by_cases hfilled : Filled (connectors JAConnect) s index
    · exact .inl hfilled
    · obtain ⟨-, rfl⟩ := Prod.mk.inj (Except.ok.inj he)
      exact .inr (congrArg ConnectManager._audioIndex (hkeep hfilled))
  · rintro (hfilled | rfl)
    · exact ⟨(), _, rfl, fun hempty => absurd hfilled hempty⟩
    · exact ⟨(), _, rfl, fun _ => rfl⟩

end Own

/-! ## All operations -/

section All
variable {J : JAConnectClass JAConnect} {s : ConnectManager JAConnect}

theorem guarded_at_iff {op : Operation JAConnect α} {index : ℤ} (h : op.index = some index) :
    Guarded J s op ↔ SlotTables.Guarded (connectors JAConnect) (op.perform J) index s := by
  unfold Guarded SlotTables.Guarded
  simp only [h, Option.some.injEq, forall_eq']

/-- An operation on the whole table has only faults to avoid. -/
theorem guarded_whole {op : Operation JAConnect α} (h : op.index = none)
    (hok : ∃ a t, op.perform J s = .ok (a, t)) : Guarded J s op := by
  obtain ⟨a, t, he⟩ := hok
  refine ⟨a, t, he, fun index hindex => ?_⟩
  rw [h] at hindex
  cases hindex

theorem sendFilled_zero_ok (empty : α) (m : Method α) :
    ∃ a t, sendFilled J 0 empty m s = .ok (a, t) := by
  obtain ⟨a, t, he, -⟩ := (sendFilled_guarded_iff (J := J) (s := s) empty m).mpr
    ((inside_iff 0).mpr (by omega))
  exact ⟨a, t, he⟩

theorem whole_ok {op : Operation JAConnect α} (h : op.index = none) :
    ∃ a t, op.perform J s = .ok (a, t) := by
  cases op with
  | GetAllNetWorkSpeed =>
    unfold Operation.perform getAllNetWorkSpeed
    refine each_ok ?_ _ _
    intro all i
    exact (send_serves _ _).bind fun _ => Serves.pure _ _
  | LivePause =>
    unfold Operation.perform livePause
    refine each_ok ?_ _ _
    intro _ i
    exact (send_serves _ _).bind fun _ => (send_serves _ _).bind fun _ => send_serves _ _
  | LiveResume =>
    unfold Operation.perform liveResume
    refine each_ok ?_ _ _
    intro _ i
    exact (send_serves _ _).bind fun _ => (send_serves _ _).bind fun _ => send_serves _ _
  | UseDirectTexture isDirect =>
    unfold Operation.perform useDirectTexture
    refine each_ok ?_ _ _
    intro _ i
    exact send_serves _ _
  | SearchDevice => exact sendFilled_zero_ok _ _
  | WriteTextOSDDirectTextureFrame txttex => exact sendFilled_zero_ok _ _
  | StopDownloadThread value => exact ⟨(), _, rfl⟩
  | _ => cases h

theorem guarded_iff_allowed (op : Operation JAConnect α) : Guarded J s op ↔ Allowed s op := by
  cases op with
  | Disconnect _ | SendAudioPacket _ _ | OpenChannel _ _ _ | CloseChannel _ _ _ | Call _ _
  | HangUp _ | SendData _ _ | PausePlayback _ _ | ResumePlayback _ _ | GetStreamNo _
  | StopPTZ _ _ | SearchRec _ _ _ _ | StartPlayback _ _ _ | StopPlayback _ _
  | CaptureImage _ _ _ | CaptureCurImage _ _ | StartRecord _ _ | StopRecord _
  | GetNetWorkSpeed _ | GetChannel _ | GetRecordState _ | PullAlarmmsg _ _ _ _
  | DecoderPause _ | SetHardwareDecoder _ _ _ _ | DecoderResume _ | GetBitrate _
  | DoDisconnect _ | SetOnlyDecoderIFrame _ _ =>
    exact iff_of_true ((guarded_at_iff rfl).mpr (sendGuarded_guarded _ _ _)) trivial
  | GetFps _ | GetHowBitrate _ | IsNeedOpen64Stream _ | GetIsInstallModeCome _ =>
    exact iff_of_true ((guarded_at_iff rfl).mpr (sendUnended_guarded _ _)) trivial
  | PtzCtrl _ _ _ | IsCrop _ | IsWallMode _ | EnableCrop _ | DisableCrop _ | GetDecoder _
  | PlaybackPauseGetData _ _ | PlaybackContinueGetData _ _ =>
    exact (guarded_at_iff rfl).trans (sendInside_guarded_iff _ _)
  | GetRealStatus _ | GetDistTortion _ =>
    exact (guarded_at_iff rfl).trans (sendFilled_guarded_iff _ _)
  | GetfishEyeParam _ _ =>
    exact (guarded_at_iff rfl).trans (guarded_ifFilled_iff (some_send_serves _ _))
  | GetConnectCtx _ => exact iff_of_true ((guarded_at_iff rfl).mpr getConnectCtx_guarded) trivial
  | GetConnector _ =>
    exact iff_of_true ((guarded_at_iff rfl).mpr (guarded_both (look_serves _))) trivial
  | ConnectFirst _ _ _ | Connect _ _ _ _ =>
    exact (guarded_at_iff rfl).trans (connect_guarded_iff _ _ _)
  | PlayAudio _ => exact (guarded_at_iff rfl).trans playAudio_guarded_iff
  | GetFileDownloadList _ => exact (guarded_at_iff rfl).trans getFileDownloadList_guarded_iff
  | DoDownloadFile _ _ _ _ _ =>
    exact (guarded_at_iff rfl).trans (doDownloadFile_guarded_iff _ _ _ _)
  | OperateDeviceFile _ _ _ _ _ =>
    exact iff_of_true ((guarded_at_iff rfl).mpr (operateDeviceFile_guarded _ _ _ _)) trivial
  | FinishDeviceFileTransfer _ =>
    exact (guarded_at_iff rfl).trans finishDeviceFileTransfer_guarded_iff
  | SetTimeZone _ _ => exact (guarded_at_iff rfl).trans (setTimeZone_guarded_iff _)
  | GetAllNetWorkSpeed | LivePause | LiveResume | SearchDevice | UseDirectTexture _
  | WriteTextOSDDirectTextureFrame _ | StopDownloadThread _ =>
    exact iff_of_true (guarded_whole rfl (whole_ok rfl)) trivial

end All

/-! ## Runs -/

/-- One operation, when it makes no fault. -/
def step (J : JAConnectClass JAConnect) (s : ConnectManager JAConnect)
    (op : Σ α, Operation JAConnect α) : Option (ConnectManager JAConnect) :=
  (op.2.perform J s).toOption.map Prod.snd

/-- Each operation is guarded in the states named for it and no others, and so is every run of
a new manager whose operations are all called in such states. -/
theorem operations_guarded_iff (J : JAConnectClass JAConnect) (ctx : ℕ) :
    (∀ (s : ConnectManager JAConnect) (α : Type) (op : Operation JAConnect α),
      Guarded J s op ↔ Allowed s op) ∧
    ∀ (ops : List (Σ α, Operation JAConnect α)) (s : ConnectManager JAConnect),
      Run (step J) (fun s op => Guarded J s op.2) (create ctx) ops s ↔
        Run (step J) (fun s op => Allowed s op.2) (create ctx) ops s :=
  ⟨fun _ _ op => guarded_iff_allowed op, fun _ _ =>
    Run.guarded_iff (fun _ => True) (fun _ _ _ _ _ _ => trivial)
      (fun _ op _ _ _ => guarded_iff_allowed op.2) trivial⟩

/-- A connection without a state, which answers with defaults. -/
def silent : JAConnectClass Unit where
  create _ := ()
  run m c := (by cases m <;> exact default, c)

/-- Four calls on a new manager that lead outside the table or to an empty slot. -/
theorem create_faults :
    getRealStatus silent (-1) (create 0) = .error (.outside (-1)) ∧
      isCrop silent 0 (create 0) = .error (.empty 0) ∧
      setTimeZone silent 0 36 (create 0) = .error (.outside 36) ∧
      finishDeviceFileTransfer silent 0 (create 0) = .error (.empty 0) ∧
      ¬ Guarded silent (create 0) (.GetRealStatus (-1)) := by
  refine ⟨rfl, rfl, rfl, rfl, fun h => ?_⟩
  have hin : Inside MAX_CONN (-1) := (guarded_iff_allowed _).mp h
  exact absurd hin (by decide)

end Jagles.ConnectTable
