import Jagles.SlotTables
import Jagles.CStrings

set_option autoImplicit false
set_option linter.dupNamespace false

/-!
# The connector table (`ConnectManager`)

The manager keeps up to `MAX_CONN` connections and passes the calls of the app on to the one
at an index. Each operation has its own checks of the index and of the slot. What a
`JAConnect` does with a call is a parameter.
-/
namespace Jagles.ConnectTable
open SlotTables CStrings

abbrev MAX_CONN : ℕ := 36

/-- `char *`. -/
abbrev CharPtr := Option CString

/-- The arguments of `SendAudioPacket`, with the bits of the ratio. -/
structure AudioPacket where
  voiceData : List UInt8
  tsMs : ℕ
  enc : CString
  samplerate : ℤ
  samplewidth : ℤ
  channels : ℤ
  compressRatio : UInt32

/-- What `GetFishEyeParameter` fills in, as the bits of each value. -/
structure FishEyeParameter where
  centerX : UInt32
  centerY : UInt32
  radius : UInt32
  angleX : UInt32
  angleY : UInt32
  angleZ : UInt32
  deriving Inhabited

/-- The methods of `JAConnect`, and those of its decoder, that the manager calls. -/
inductive Method : Type → Type where
  | GetRealStatus : Method ℤ
  | CleanBuffer : Method Unit
  | Connect (connectstr verifystr : CharPtr) (channel : ℤ) : Method Unit
  | Disconnect : Method Unit
  | DoDisconnect : Method Unit
  | SendAudioPacket (packet : AudioPacket) : Method ℤ
  | OpenChannel (channelNo StreamNo : ℤ) : Method Unit
  | CloseChannel (channelNo StreamNo : ℤ) : Method Unit
  | Call (channelNo : ℤ) : Method ℤ
  | HangUp : Method ℤ
  | SendData (data : List UInt8) : Method Unit
  | PlaybackPauseGetData (channelNo : ℤ) : Method Unit
  | PlaybackContinueGetData (channelNo : ℤ) : Method Unit
  | getStreamNo : Method ℤ
  | CtrlPTZ (cmd channelNo : ℤ) : Method Unit
  | StopPTZ (channelNo : ℤ) : Method Unit
  | SearchRec (pStartTime pEndTime channelNo : ℤ) : Method Unit
  | StartPlayback (pStartTime channelNo : ℤ) : Method Unit
  | StopPlayback (channelNo : ℤ) : Method Unit
  | CaptureImage (filename : CharPtr) (type : ℤ) : Method Bool
  | CaptureCurImage (filename : CharPtr) : Method Bool
  | RecordFile (filename : CharPtr) : Method Bool
  | StopRecord : Method Unit
  | GetBitrate : Method ℤ
  | GetChannel : Method ℤ
  | GetRecordState : Method Bool
  | SearchDevice : Method Unit
  | PullAlarmmsg (type channel ticket : ℤ) : Method Unit
  | DecoderPause : Method Unit
  | DecoderResume : Method Unit
  | SetHardwareDecoder (value : Bool) (width height : ℤ) : Method Unit
  | GetDecoder : Method ℕ
  | isDirectTexture (isDirect : Bool) : Method Unit
  | GetCrop : Method Bool
  | WallMode : Method Bool
  | EnableCrop (value : Bool) : Method Unit
  | WriteTextOSDDirectTextureFrame (txttex : List UInt8) : Method Unit
  | GetFPS : Method ℤ
  | getHowBirate : Method ℤ
  | isNeedOpen64Stream : Method Bool
  | getIsInstallModeCome : Method ℤ
  | SetOnlyDecoderIFrame (value : Bool) : Method Unit
  | GetFishEyeParameter (index : ℤ) : Method FishEyeParameter
  | GetDistTortion : Method (Option (List UInt8))
  | OperateDeviceFile (optype opflag : ℤ) (fp : CharPtr) : Method ℤ
  | DestroyDownloadVcon : Method ℤ
  | SetTimeZone (pTimeZone : UInt32) : Method Unit

/-- A `JAConnect` is made for a slot and answers calls. -/
structure JAConnectClass (JAConnect : Type) where
  create : ℤ → JAConnect
  run : {α : Type} → Method α → JAConnect → α × JAConnect

/-- `mgn` tells whether the slot points to its manager. -/
structure JACONNECT (JAConnect : Type) where
  index : ℤ
  isPlaying : Bool
  mgn : Bool
  ctx : ℕ
  conn : Option JAConnect

def JACONNECT.zero (JAConnect : Type) : JACONNECT JAConnect := ⟨0, false, false, 0, none⟩

/-- The members that the operations use, and the global that `DoDownloadFile` sets. For the
pool it is recorded whether it is allocated, and for the thread and its lock whether they
have been set up. -/
structure ConnectManager (JAConnect : Type) where
  _connector : Fin MAX_CONN → JACONNECT JAConnect
  _audioIndex : ℤ
  _ctx : ℕ
  mDownloadDataPool : Bool
  mDownloadDataPoolSize : ℕ
  mDownloadThread : Bool
  mDownloadLock : Bool
  mDownloadSavePath : CString
  mIsDownloading : Bool
  DownLoadFile_path : CharPtr

section Manager
variable {JAConnect : Type}

namespace ConnectManager

def create (ctx : ℕ) : ConnectManager JAConnect where
  _connector := fun _ => .zero JAConnect
  _audioIndex := 0
  _ctx := ctx
  mDownloadDataPool := false
  mDownloadDataPoolSize := 0
  mDownloadThread := false
  mDownloadLock := false
  mDownloadSavePath := CString.empty
  mIsDownloading := false
  DownLoadFile_path := none

def setSlot (s : ConnectManager JAConnect) (i : Fin MAX_CONN) (c : JACONNECT JAConnect) :
    ConnectManager JAConnect := { s with _connector := Function.update s._connector i c }

@[simp] theorem setSlot_same (s : ConnectManager JAConnect) (i : Fin MAX_CONN)
    (c : JACONNECT JAConnect) : (s.setSlot i c)._connector i = c := Function.update_self _ _ _

end ConnectManager

/-- `_connector[index].conn`. -/
def connectors (JAConnect : Type) : Slots (ConnectManager JAConnect) JAConnect MAX_CONN where
  object s i := (s._connector i).conn
  put s i c := s.setSlot i { s._connector i with conn := some c }
  object_put s i c := by rw [ConnectManager.setSlot_same]

/-- An operation of the manager. -/
abbrev M (JAConnect α : Type) := Op (ConnectManager JAConnect) α

variable (J : JAConnectClass JAConnect) {α : Type}

/-- `_connector[index].conn->m(..)`. -/
def send (index : ℤ) (m : Method α) : M JAConnect α := call (connectors JAConnect) index (J.run m)

/-- The call behind a check of the slot, which gives `empty` otherwise. -/
def sendFilled (index : ℤ) (empty : α) (m : Method α) : M JAConnect α :=
  ifFilled (connectors JAConnect) index empty (send J index m)

/-- The call behind a check of the index, which gives `invalid` otherwise. -/
def sendInside (index : ℤ) (invalid : α) (m : Method α) : M JAConnect α :=
  ifInside MAX_CONN index invalid (send J index m)

/-- The call behind both checks. -/
def sendGuarded (index : ℤ) (invalid empty : α) (m : Method α) : M JAConnect α :=
  ifInside MAX_CONN index invalid (sendFilled J index empty m)

/-- As `sendGuarded`, in a function that ends without a value when the slot is empty. -/
def sendUnended (index : ℤ) (invalid : α) (m : Method α) : M JAConnect (Option α) :=
  ifInside MAX_CONN index (some invalid)
    (ifFilled (connectors JAConnect) index none (some <$> send J index m))

namespace ConnectManager

/-! ## Operations at an index -/

def getConnectCtx (index : ℤ) : M JAConnect (Option JAConnect) :=
  ifInside MAX_CONN index none (look (connectors JAConnect) index)

def getRealStatus (index : ℤ) : M JAConnect ℤ := sendFilled J index 0 .GetRealStatus

/-- The slot is set up for a new `JAConnect`. -/
def fill (index : ℤ) : M JAConnect Unit := fun s =>
  if h : Inside MAX_CONN index then
    .ok ((), s.setSlot (place h)
      { s._connector (place h) with
        index := index
        conn := some (J.create index)
        mgn := true
        ctx := s._ctx })
  else .error (.outside index)

def stopPlaying (index : ℤ) : M JAConnect Unit := fun s =>
  if h : Inside MAX_CONN index then
    .ok ((), s.setSlot (place h) { s._connector (place h) with isPlaying := false })
  else .error (.outside index)

/-- The result is the slot, or `NULL`. -/
def connect (connectstr verifystr : CharPtr) (index channel : ℤ) : M JAConnect (Option ℤ) :=
  ifInside MAX_CONN index none do
    if (← look (connectors JAConnect) index).isNone then fill J index
    send J index .CleanBuffer
    send J index (.Connect connectstr verifystr channel)
    stopPlaying index
    pure (some index)

def connectFirst (connectstr verifystr : CharPtr) (index : ℤ) : M JAConnect (Option ℤ) :=
  connect J connectstr verifystr index 0

def disconnect (index : ℤ) : M JAConnect Unit := sendGuarded J index () () .Disconnect

def sendAudioPacket (packet : AudioPacket) (index : ℤ) : M JAConnect ℤ :=
  sendGuarded J index (-1) (-1) (.SendAudioPacket packet)

def openChannel (bitrate channel index : ℤ) : M JAConnect Unit :=
  sendGuarded J index () () (.OpenChannel channel bitrate)

def closeChannel (bitrate channel index : ℤ) : M JAConnect Unit :=
  sendGuarded J index () () (.CloseChannel channel bitrate)

def call (channelNo index : ℤ) : M JAConnect ℤ :=
  sendGuarded J index (-2) (-1) (.Call channelNo)

def hangUp (index : ℤ) : M JAConnect ℤ := sendGuarded J index (-2) (-1) .HangUp

def sendData (data : List UInt8) (index : ℤ) : M JAConnect Unit :=
  sendGuarded J index () () (.SendData data)

def pausePlayback (channel index : ℤ) : M JAConnect Unit :=
  sendGuarded J index () () (.PlaybackPauseGetData channel)

def resumePlayback (channel index : ℤ) : M JAConnect Unit :=
  sendGuarded J index () () (.PlaybackContinueGetData channel)

def getStreamNo (index : ℤ) : M JAConnect ℤ := sendGuarded J index (-2) (-1) .getStreamNo

def ptzCtrl (type channel index : ℤ) : M JAConnect Unit :=
  sendInside J index () (.CtrlPTZ type channel)

def stopPTZ (channel index : ℤ) : M JAConnect Unit := sendGuarded J index () () (.StopPTZ channel)

def searchRec (startTime endTime channel index : ℤ) : M JAConnect Unit :=
  sendGuarded J index () () (.SearchRec startTime endTime channel)

def startPlayback (startTime channel index : ℤ) : M JAConnect Unit :=
  sendGuarded J index () () (.StartPlayback startTime channel)

def stopPlayback (channel index : ℤ) : M JAConnect Unit :=
  sendGuarded J index () () (.StopPlayback channel)

def getConnector (index : ℤ) : M JAConnect (Option JAConnect) :=
  ifInside MAX_CONN index none
    (ifFilled (connectors JAConnect) index none (look (connectors JAConnect) index))

def captureImage (filename : CharPtr) (type index : ℤ) : M JAConnect Bool :=
  sendGuarded J index false false (.CaptureImage filename type)

def captureCurImage (filename : CharPtr) (index : ℤ) : M JAConnect Bool :=
  sendGuarded J index false false (.CaptureCurImage filename)

def startRecord (filename : CharPtr) (index : ℤ) : M JAConnect Bool :=
  sendGuarded J index false false (.RecordFile filename)

def stopRecord (index : ℤ) : M JAConnect Unit := sendGuarded J index () () .StopRecord

def getNetWorkSpeed (index : ℤ) : M JAConnect ℤ := sendGuarded J index (-1) 0 .GetBitrate

def getChannel (index : ℤ) : M JAConnect ℤ := sendGuarded J index (-2) (-1) .GetChannel

def getRecordState (index : ℤ) : M JAConnect Bool :=
  sendGuarded J index false false .GetRecordState

def pullAlarmmsg (type channle time index : ℤ) : M JAConnect Unit :=
  sendGuarded J index () () (.PullAlarmmsg type channle time)

def decoderPause (index : ℤ) : M JAConnect Unit := sendGuarded J index () () .DecoderPause

def setHardwareDecoder (value : Bool) (index width height : ℤ) : M JAConnect Unit :=
  sendGuarded J index () () (.SetHardwareDecoder value width height)

def decoderResume (index : ℤ) : M JAConnect Unit := sendGuarded J index () () .DecoderResume

def isCrop (index : ℤ) : M JAConnect Bool := sendInside J index false .GetCrop

def isWallMode (index : ℤ) : M JAConnect Bool := sendInside J index false .WallMode

def enableCrop (index : ℤ) : M JAConnect Unit := sendInside J index () (.EnableCrop true)

def disableCrop (index : ℤ) : M JAConnect Unit := sendInside J index () (.EnableCrop false)

/-- The address of the decoder, or `NULL`. -/
def getDecoder (index : ℤ) : M JAConnect ℕ := sendInside J index 0 .GetDecoder

def playbackPauseGetData (channel index : ℤ) : M JAConnect Unit :=
  sendInside J index () (.PlaybackPauseGetData channel)

def playbackContinueGetData (channel index : ℤ) : M JAConnect Unit :=
  sendInside J index () (.PlaybackContinueGetData channel)

def getBitrate (index : ℤ) : M JAConnect ℤ := sendGuarded J index 0 0 .getStreamNo

def playAudio (index : ℤ) : M JAConnect Unit :=
  modify fun s => { s with _audioIndex := index }

def doDisconnect (index : ℤ) : M JAConnect Unit := sendGuarded J index () () .DoDisconnect

def getFps (index : ℤ) : M JAConnect (Option ℤ) := sendUnended J index 0 .GetFPS

def getHowBitrate (index : ℤ) : M JAConnect (Option ℤ) := sendUnended J index 2 .getHowBirate

def isNeedOpen64Stream (index : ℤ) : M JAConnect (Option Bool) :=
  sendUnended J index false .isNeedOpen64Stream

def getIsInstallModeCome (index : ℤ) : M JAConnect (Option ℤ) :=
  sendUnended J index 3 .getIsInstallModeCome

def setOnlyDecoderIFrame (value : Bool) (index : ℤ) : M JAConnect Unit :=
  sendGuarded J index () () (.SetOnlyDecoderIFrame value)

/-- The values behind the pointers change when there is a result. -/
def getfishEyeParam (chl_index index : ℤ) : M JAConnect (Option FishEyeParameter) :=
  ifFilled (connectors JAConnect) chl_index none
    (some <$> send J chl_index (.GetFishEyeParameter index))

def getDistTortion (chl_index : ℤ) : M JAConnect (Option (List UInt8)) :=
  sendFilled J chl_index none .GetDistTortion

/-- The path is taken to fit in `mDownloadSavePath`. -/
def startDownload (savePath : CharPtr) (s : ConnectManager JAConnect) :
    ConnectManager JAConnect :=
  { s with
    mIsDownloading := true
    mDownloadDataPool := true
    mDownloadSavePath := savePath.getD s.mDownloadSavePath
    mDownloadLock := true
    mDownloadThread := true }

def operateDeviceFile (opType opFlag : ℤ) (fp savePath : CharPtr) (idx : ℤ) : M JAConnect ℤ :=
  if idx > 32 ∨ idx < 0 then pure (-1)
  else do
    let conn ← look (connectors JAConnect) idx
    if !(← get).mIsDownloading && conn.isSome then
      modify (startDownload savePath)
      let _ ← send J idx (.OperateDeviceFile opType opFlag fp)
    pure 0

def getFileDownloadList (_idx : ℤ) : M JAConnect CharPtr := do
  let _ ← operateDeviceFile J 0 0 none none 0
  pure none

def doDownloadFile (opType opFlag : ℤ) (fp file_path : CharPtr) (index : ℤ) :
    M JAConnect Unit := do
  modify fun s => { s with DownLoadFile_path := file_path }
  let _ ← operateDeviceFile J opType opFlag fp file_path index
  pure ()

def finishDownload (s : ConnectManager JAConnect) : ConnectManager JAConnect :=
  { s with
    mIsDownloading := false
    mDownloadThread := false
    mDownloadLock := false
    mDownloadDataPool := false
    mDownloadDataPoolSize := 0
    mDownloadSavePath := CString.empty }

def finishDeviceFileTransfer (idx : ℤ) : M JAConnect ℤ :=
  if idx < 0 ∨ idx > 32 then pure (-1)
  else do
    let _ ← send J idx .DestroyDownloadVcon
    modify finishDownload
    pure 0

def setTimeZone (pTimeZone : UInt32) (index : ℤ) : M JAConnect Unit :=
  if index < 0 ∨ index > 36 then pure ()
  else sendFilled J index () (.SetTimeZone pTimeZone)

/-! ## Operations on the whole table -/

def getAllNetWorkSpeed : M JAConnect ℤ :=
  each (connectors JAConnect) (fun all i => do
    let bitrate ← send J i .GetBitrate
    pure (all + bitrate)) 0

def livePause : M JAConnect Unit :=
  each (connectors JAConnect) (fun _ i => do
    let channel ← send J i .GetChannel
    let streamNo ← send J i .getStreamNo
    send J i (.CloseChannel channel streamNo)) ()

def liveResume : M JAConnect Unit :=
  each (connectors JAConnect) (fun _ i => do
    let channel ← send J i .GetChannel
    let streamNo ← send J i .getStreamNo
    send J i (.OpenChannel channel streamNo)) ()

def searchDevice : M JAConnect Unit := sendFilled J 0 () .SearchDevice

def useDirectTexture (isDirect : Bool) : M JAConnect Unit :=
  each (connectors JAConnect) (fun _ i => send J i (.isDirectTexture isDirect)) ()

def writeTextOSDDirectTextureFrame (txttex : List UInt8) : M JAConnect Unit :=
  sendFilled J 0 () (.WriteTextOSDDirectTextureFrame txttex)

def stopDownloadThread (value : Bool) : M JAConnect Unit :=
  modify fun s => { s with mIsDownloading := value }

end ConnectManager

end Manager

/-- The operations, those on the whole table last. -/
inductive Operation (JAConnect : Type) : Type → Type where
  | GetConnectCtx (index : ℤ) : Operation JAConnect (Option JAConnect)
  | GetRealStatus (index : ℤ) : Operation JAConnect ℤ
  | ConnectFirst (connectstr verifystr : CharPtr) (index : ℤ) : Operation JAConnect (Option ℤ)
  | Connect (connectstr verifystr : CharPtr) (index channel : ℤ) : Operation JAConnect (Option ℤ)
  | Disconnect (index : ℤ) : Operation JAConnect Unit
  | SendAudioPacket (packet : AudioPacket) (index : ℤ) : Operation JAConnect ℤ
  | OpenChannel (bitrate channel index : ℤ) : Operation JAConnect Unit
  | CloseChannel (bitrate channel index : ℤ) : Operation JAConnect Unit
  | Call (channelNo index : ℤ) : Operation JAConnect ℤ
  | HangUp (index : ℤ) : Operation JAConnect ℤ
  | SendData (data : List UInt8) (index : ℤ) : Operation JAConnect Unit
  | PausePlayback (channel index : ℤ) : Operation JAConnect Unit
  | ResumePlayback (channel index : ℤ) : Operation JAConnect Unit
  | GetStreamNo (index : ℤ) : Operation JAConnect ℤ
  | PtzCtrl (type channel index : ℤ) : Operation JAConnect Unit
  | StopPTZ (channel index : ℤ) : Operation JAConnect Unit
  | SearchRec (startTime endTime channel index : ℤ) : Operation JAConnect Unit
  | StartPlayback (startTime channel index : ℤ) : Operation JAConnect Unit
  | StopPlayback (channel index : ℤ) : Operation JAConnect Unit
  | GetConnector (index : ℤ) : Operation JAConnect (Option JAConnect)
  | CaptureImage (filename : CharPtr) (type index : ℤ) : Operation JAConnect Bool
  | CaptureCurImage (filename : CharPtr) (index : ℤ) : Operation JAConnect Bool
  | StartRecord (filename : CharPtr) (index : ℤ) : Operation JAConnect Bool
  | StopRecord (index : ℤ) : Operation JAConnect Unit
  | GetNetWorkSpeed (index : ℤ) : Operation JAConnect ℤ
  | GetChannel (index : ℤ) : Operation JAConnect ℤ
  | GetRecordState (index : ℤ) : Operation JAConnect Bool
  | PullAlarmmsg (type channle time index : ℤ) : Operation JAConnect Unit
  | DecoderPause (index : ℤ) : Operation JAConnect Unit
  | SetHardwareDecoder (value : Bool) (index width height : ℤ) : Operation JAConnect Unit
  | DecoderResume (index : ℤ) : Operation JAConnect Unit
  | IsCrop (index : ℤ) : Operation JAConnect Bool
  | IsWallMode (index : ℤ) : Operation JAConnect Bool
  | EnableCrop (index : ℤ) : Operation JAConnect Unit
  | DisableCrop (index : ℤ) : Operation JAConnect Unit
  | GetDecoder (index : ℤ) : Operation JAConnect ℕ
  | PlaybackPauseGetData (channel index : ℤ) : Operation JAConnect Unit
  | PlaybackContinueGetData (channel index : ℤ) : Operation JAConnect Unit
  | GetBitrate (index : ℤ) : Operation JAConnect ℤ
  | PlayAudio (index : ℤ) : Operation JAConnect Unit
  | DoDisconnect (index : ℤ) : Operation JAConnect Unit
  | GetFps (index : ℤ) : Operation JAConnect (Option ℤ)
  | GetHowBitrate (index : ℤ) : Operation JAConnect (Option ℤ)
  | IsNeedOpen64Stream (index : ℤ) : Operation JAConnect (Option Bool)
  | GetIsInstallModeCome (index : ℤ) : Operation JAConnect (Option ℤ)
  | SetOnlyDecoderIFrame (value : Bool) (index : ℤ) : Operation JAConnect Unit
  | GetfishEyeParam (chl_index index : ℤ) : Operation JAConnect (Option FishEyeParameter)
  | GetDistTortion (chl_index : ℤ) : Operation JAConnect (Option (List UInt8))
  | GetFileDownloadList (idx : ℤ) : Operation JAConnect CharPtr
  | DoDownloadFile (opType opFlag : ℤ) (fp file_path : CharPtr) (index : ℤ) :
      Operation JAConnect Unit
  | OperateDeviceFile (opType opFlag : ℤ) (fp savePath : CharPtr) (idx : ℤ) :
      Operation JAConnect ℤ
  | FinishDeviceFileTransfer (idx : ℤ) : Operation JAConnect ℤ
  | SetTimeZone (pTimeZone : UInt32) (index : ℤ) : Operation JAConnect Unit
  | GetAllNetWorkSpeed : Operation JAConnect ℤ
  | LivePause : Operation JAConnect Unit
  | LiveResume : Operation JAConnect Unit
  | SearchDevice : Operation JAConnect Unit
  | UseDirectTexture (isDirect : Bool) : Operation JAConnect Unit
  | WriteTextOSDDirectTextureFrame (txttex : List UInt8) : Operation JAConnect Unit
  | StopDownloadThread (value : Bool) : Operation JAConnect Unit

namespace Operation

/-- The index of the table that an operation is given. -/
def index {JAConnect α : Type} : Operation JAConnect α → Option ℤ
  | .GetConnectCtx index => index
  | .GetRealStatus index => index
  | .ConnectFirst _ _ index => index
  | .Connect _ _ index _ => index
  | .Disconnect index => index
  | .SendAudioPacket _ index => index
  | .OpenChannel _ _ index => index
  | .CloseChannel _ _ index => index
  | .Call _ index => index
  | .HangUp index => index
  | .SendData _ index => index
  | .PausePlayback _ index => index
  | .ResumePlayback _ index => index
  | .GetStreamNo index => index
  | .PtzCtrl _ _ index => index
  | .StopPTZ _ index => index
  | .SearchRec _ _ _ index => index
  | .StartPlayback _ _ index => index
  | .StopPlayback _ index => index
  | .GetConnector index => index
  | .CaptureImage _ _ index => index
  | .CaptureCurImage _ index => index
  | .StartRecord _ index => index
  | .StopRecord index => index
  | .GetNetWorkSpeed index => index
  | .GetChannel index => index
  | .GetRecordState index => index
  | .PullAlarmmsg _ _ _ index => index
  | .DecoderPause index => index
  | .SetHardwareDecoder _ index _ _ => index
  | .DecoderResume index => index
  | .IsCrop index => index
  | .IsWallMode index => index
  | .EnableCrop index => index
  | .DisableCrop index => index
  | .GetDecoder index => index
  | .PlaybackPauseGetData _ index => index
  | .PlaybackContinueGetData _ index => index
  | .GetBitrate index => index
  | .PlayAudio index => index
  | .DoDisconnect index => index
  | .GetFps index => index
  | .GetHowBitrate index => index
  | .IsNeedOpen64Stream index => index
  | .GetIsInstallModeCome index => index
  | .SetOnlyDecoderIFrame _ index => index
  | .GetfishEyeParam chl_index _ => chl_index
  | .GetDistTortion chl_index => chl_index
  | .GetFileDownloadList idx => idx
  | .DoDownloadFile _ _ _ _ index => index
  | .OperateDeviceFile _ _ _ _ idx => idx
  | .FinishDeviceFileTransfer idx => idx
  | .SetTimeZone _ index => index
  | _ => none

def perform {JAConnect : Type} (J : JAConnectClass JAConnect) {α : Type} :
    Operation JAConnect α → M JAConnect α
  | .GetConnectCtx index => ConnectManager.getConnectCtx index
  | .GetRealStatus index => ConnectManager.getRealStatus J index
  | .ConnectFirst connectstr verifystr index =>
    ConnectManager.connectFirst J connectstr verifystr index
  | .Connect connectstr verifystr index channel =>
    ConnectManager.connect J connectstr verifystr index channel
  | .Disconnect index => ConnectManager.disconnect J index
  | .SendAudioPacket packet index => ConnectManager.sendAudioPacket J packet index
  | .OpenChannel bitrate channel index => ConnectManager.openChannel J bitrate channel index
  | .CloseChannel bitrate channel index => ConnectManager.closeChannel J bitrate channel index
  | .Call channelNo index => ConnectManager.call J channelNo index
  | .HangUp index => ConnectManager.hangUp J index
  | .SendData data index => ConnectManager.sendData J data index
  | .PausePlayback channel index => ConnectManager.pausePlayback J channel index
  | .ResumePlayback channel index => ConnectManager.resumePlayback J channel index
  | .GetStreamNo index => ConnectManager.getStreamNo J index
  | .PtzCtrl type channel index => ConnectManager.ptzCtrl J type channel index
  | .StopPTZ channel index => ConnectManager.stopPTZ J channel index
  | .SearchRec startTime endTime channel index =>
    ConnectManager.searchRec J startTime endTime channel index
  | .StartPlayback startTime channel index =>
    ConnectManager.startPlayback J startTime channel index
  | .StopPlayback channel index => ConnectManager.stopPlayback J channel index
  | .GetConnector index => ConnectManager.getConnector index
  | .CaptureImage filename type index => ConnectManager.captureImage J filename type index
  | .CaptureCurImage filename index => ConnectManager.captureCurImage J filename index
  | .StartRecord filename index => ConnectManager.startRecord J filename index
  | .StopRecord index => ConnectManager.stopRecord J index
  | .GetNetWorkSpeed index => ConnectManager.getNetWorkSpeed J index
  | .GetChannel index => ConnectManager.getChannel J index
  | .GetRecordState index => ConnectManager.getRecordState J index
  | .PullAlarmmsg type channle time index => ConnectManager.pullAlarmmsg J type channle time index
  | .DecoderPause index => ConnectManager.decoderPause J index
  | .SetHardwareDecoder value index width height =>
    ConnectManager.setHardwareDecoder J value index width height
  | .DecoderResume index => ConnectManager.decoderResume J index
  | .IsCrop index => ConnectManager.isCrop J index
  | .IsWallMode index => ConnectManager.isWallMode J index
  | .EnableCrop index => ConnectManager.enableCrop J index
  | .DisableCrop index => ConnectManager.disableCrop J index
  | .GetDecoder index => ConnectManager.getDecoder J index
  | .PlaybackPauseGetData channel index => ConnectManager.playbackPauseGetData J channel index
  | .PlaybackContinueGetData channel index =>
    ConnectManager.playbackContinueGetData J channel index
  | .GetBitrate index => ConnectManager.getBitrate J index
  | .PlayAudio index => ConnectManager.playAudio index
  | .DoDisconnect index => ConnectManager.doDisconnect J index
  | .GetFps index => ConnectManager.getFps J index
  | .GetHowBitrate index => ConnectManager.getHowBitrate J index
  | .IsNeedOpen64Stream index => ConnectManager.isNeedOpen64Stream J index
  | .GetIsInstallModeCome index => ConnectManager.getIsInstallModeCome J index
  | .SetOnlyDecoderIFrame value index => ConnectManager.setOnlyDecoderIFrame J value index
  | .GetfishEyeParam chl_index index => ConnectManager.getfishEyeParam J chl_index index
  | .GetDistTortion chl_index => ConnectManager.getDistTortion J chl_index
  | .GetFileDownloadList idx => ConnectManager.getFileDownloadList J idx
  | .DoDownloadFile opType opFlag fp file_path index =>
    ConnectManager.doDownloadFile J opType opFlag fp file_path index
  | .OperateDeviceFile opType opFlag fp savePath idx =>
    ConnectManager.operateDeviceFile J opType opFlag fp savePath idx
  | .FinishDeviceFileTransfer idx => ConnectManager.finishDeviceFileTransfer J idx
  | .SetTimeZone pTimeZone index => ConnectManager.setTimeZone J pTimeZone index
  | .GetAllNetWorkSpeed => ConnectManager.getAllNetWorkSpeed J
  | .LivePause => ConnectManager.livePause J
  | .LiveResume => ConnectManager.liveResume J
  | .SearchDevice => ConnectManager.searchDevice J
  | .UseDirectTexture isDirect => ConnectManager.useDirectTexture J isDirect
  | .WriteTextOSDDirectTextureFrame txttex =>
    ConnectManager.writeTextOSDDirectTextureFrame J txttex
  | .StopDownloadThread value => ConnectManager.stopDownloadThread value

end Operation

end Jagles.ConnectTable
