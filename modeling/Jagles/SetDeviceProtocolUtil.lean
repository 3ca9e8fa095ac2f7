import Jagles.DeviceProtocolUtil

set_option autoImplicit false
set_option linter.dupNamespace false

/-!
# Device settings (`SetDeviceProtocolUtil`)

`raw` gives the tree of a string that is put into a message without quotation marks.
-/
namespace Jagles.SetDeviceProtocolUtil
open Json DeviceProtocolUtil

variable {S I B : Type}

def setDevice (verify userName userPWD : S) (isPush isSound : B) (soundType definition : S)
    (isMotionRecord : B) (recordList : S) :
    List (Piece S I B) :=
  [.lit "\x7b\n",
    .lit "   \"Version\":\"1.0.0\",\n",
    .lit "   \"Method\":\"set\",\n",
    .lit "   \"IPCam\":\x7b\n",
    .lit "               \"ModeSetting\":\x7b\n",
    .lit "                           \"Definition\":\"", .str definition, .lit "\"\n",
    .lit "                               \x7d,\n",
    .lit "               \"AlarmSetting\":\x7b\n",
    .lit "                   \"MotionDetection\":\x7b\n",
    .lit "                                   \"Enabled\":", .bool isMotionRecord, .lit "\n",
    .lit "                                 \x7d,\n",
    .lit "                   \"MessagePushEnabled\":", .bool isPush, .lit "\n",
    .lit "                      \x7d,\n",
    .lit "               \"PromptSounds\":\x7b\n",
    .lit "                      \"Enabled\":", .bool isSound, .lit ",\n",
    .lit "                      \"Type\":\"", .str soundType, .lit "\"\n",
    .lit "                      \x7d,\n",
    .lit "               \"TfcardManager\":\x7b\n",
    .lit "                      \"TFcard_recordSchedule\":", .str recordList, .lit "\n",
    .lit "                      \x7d\n",
    .lit "            \x7d,\n",
    .lit "   \"Authorization\":\x7b\n",
    .lit "               \"Verify\":\"", .str verify, .lit "\",\n",
    .lit "               \"username\":\"", .str userName, .lit "\",\n",
    .lit "               \"password\":\"", .str userPWD, .lit "\"", .lit "\n",
    .lit "               \x7d\n",
    .lit ""]

def deviceSettings (raw : S → Value (Slot S I B)) (verify userName userPWD : S)
    (isPush isSound : B) (soundType definition : S) (isMotionRecord : B) (recordList : S) :
    Value (Slot S I B) :=
  object [
    ("Version", string "1.0.0"),
    ("Method", string "set"),
    ("IPCam", object [
      ("ModeSetting", object [("Definition", ofStr definition)]),
      ("AlarmSetting", object [
        ("MotionDetection", object [("Enabled", ofBool isMotionRecord)]),
        ("MessagePushEnabled", ofBool isPush)]),
      ("PromptSounds", object [("Enabled", ofBool isSound), ("Type", ofStr soundType)]),
      ("TfcardManager", object [("TFcard_recordSchedule", raw recordList)])]),
    ("Authorization", authorization verify userName userPWD)]

def getTimeZoneSetWithPassword (timeZone utcTime : I) (verify userName pwd newVerifyString : S) :
    List (Piece S I B) :=
  [.lit "\x7b\n",
    .lit "   \"Version\": \"1.0.0\",\n",
    .lit "   \"Method\": \"set\",\n",
    .lit "   \"IPCam\": \x7b\n",
    .lit "        \"SystemOperation\": \x7b\n",
    .lit "                \"TimeSync\": \x7b\n",
    .lit "                        \"LocalTime\":", .int utcTime, .lit ",\n",
    .lit "                        \"UTCTime\":", .int utcTime, .lit ",\n",
    .lit "                        \"TimeZone\":", .int timeZone, .lit "\n",
    .lit "                        \x7d\n",
    .lit "                \x7d\n",
    .lit "        \x7d,\n",
    .lit "   \"Authorization\": \x7b\n",
    .lit "        \"Verify\":\"", .str verify, .lit "\",\n",
    .lit "        \"username\":\"", .str userName, .lit "\",\n",
    .lit "        \"password\":\"", .str pwd, .lit "\"\n",
    .lit "        \x7d,\n",
    .lit "   \"UserManager\":\x7b\n",
    .lit "           \"Method\":\"modify\",\n",
    .lit "           \"Verify\":\"", .str newVerifyString, .lit "\",\n",
    .lit "           \"username\":\"\",\n",
    .lit "           \"password\":\"\"\n",
    .lit "           \x7d\n",
    .lit "\x7d"]

def timeZoneWithPassword (timeZone utcTime : I) (verify userName pwd newVerifyString : S) :
    Value (Slot S I B) :=
  object [
    ("Version", string "1.0.0"),
    ("Method", string "set"),
    ("IPCam", object [
      ("SystemOperation", object [
        ("TimeSync", object [
          ("LocalTime", ofInt utcTime),
          ("UTCTime", ofInt utcTime),
          ("TimeZone", ofInt timeZone)])])]),
    ("Authorization", authorization verify userName pwd),
    ("UserManager", userManager newVerifyString)]

def setFirmwareUpgrade (verify userName pwd : S) : List (Piece S I B) :=
  [.lit "\x7b\n",
    .lit "\t\"Version\": \"1.0.0\",\n",
    .lit "\t\"Method\":\"set\",\n",
    .lit "\t\"IPCam\": \x7b\n",
    .lit "\t        \"SystemOperation\": \x7b\n",
    .lit "\t                \"Upgrade\": \x7b\n",
    .lit "\t                        \"Enabled\":true,\n",
    .lit "\t                        \"Status\":\"\",\n",
    .lit "\t                        \"error\":\"\"\n",
    .lit "\t                        \x7d\n",
    .lit "\t                \x7d\n",
    .lit "\t        \x7d,\n",
    .lit "\t\"Authorization\": \x7b\n",
    .lit "\t        \"Verify\":\"", .str verify, .lit "\",\n",
    .lit "\t        \"username\":\"", .str userName, .lit "\",\n",
    .lit "\t        \"password\":\"", .str pwd, .lit "\"\n",
    .lit "\t        \x7d\n",
    .lit "\n",
    .lit "\x7d"]

def firmwareUpgrade (verify userName pwd : S) : Value (Slot S I B) :=
  object [
    ("Version", string "1.0.0"),
    ("Method", string "set"),
    ("IPCam", object [
      ("SystemOperation", object [
        ("Upgrade", object [
          ("Enabled", bool true),
          ("Status", string ""),
          ("error", string "")])])]),
    ("Authorization", authorization verify userName pwd)]

def getResetDeviceSDCard (verify userName password : S) : List (Piece S I B) :=
  [.lit "\x7b\n",
    .lit "    \"Version\":\"1.0.0\",\n",
    .lit "    \"Method\":\"set\",\n",
    .lit "    \"IPCam\":\x7b\n",
    .lit "        \"TfcardManager\":\x7b\n",
    .lit "            \"Operation\":\"format\"\n",
    .lit "        \x7d\n",
    .lit "    \x7d,\n",
    .lit "    \"Authorization\":\x7b\n",
    .lit "        \"Verify\":\"", .str verify, .lit "\",\n",
    .lit "        \"username\":\"", .str userName, .lit "\",\n",
    .lit "        \"password\":\"", .str password, .lit "\"\n",
    .lit "    \x7d\n",
    .lit "\x7d"]

def resetSDCard (verify userName password : S) : Value (Slot S I B) :=
  object [
    ("Version", string "1.0.0"),
    ("Method", string "set"),
    ("IPCam", object [("TfcardManager", object [("Operation", string "format")])]),
    ("Authorization", authorization verify userName password)]

def updateChannel (channel : I) (verify userName userPwd : S) : List (Piece S I B) :=
  [.lit "\x7b\n",
    .lit "       \"Version\":\"1.0.2\",\n",
    .lit "       \"Method\":\"set\",\n",
    .lit "       \"IPCam\":\x7b\n",
    .lit "                   \"SystemOperation\":\x7b\n",
    .lit "                                           \"Upgrade\":\x7b\n",
    .lit "                                                       \"Enabled\":true,\n",
    .lit "                                                       \"Status\":\"\",\n",
    .lit "                                                       \"error\":\"\"\n",
    .lit "                                                       \x7d\n",
    .lit "                                       \x7d,\n",
    .lit "                   \"ChannelManager\":\x7b\n",
    .lit "                               \"enableChannel\":\"\",\n",
    .lit "                               \"ChannelList\":\"", .int channel, .lit "\",\n",
    .lit "                               \"Operation\":\"SetChannel\",\n",
    .lit "                               \"OperationProperty\":\x7b\n",
    .lit "                                                       \"opt\":[]\n",
    .lit "                                                       \x7d\n",
    .lit "                                      \x7d\n",
    .lit "                  \x7d,\n",
    .lit "    \"Authorization\":\x7b\n",
    .lit "          \"Verify\":\"", .str verify, .lit "\",\n",
    .lit "          \"username\":\"", .str userName, .lit "", .lit "\",\n",
    .lit "          \"password\":\"", .str userPwd, .lit "", .lit "\"\n",
    .lit "    \x7d\n",
    .lit "\x7d"]

def channelUpdate (channel : I) (verify userName userPwd : S) : Value (Slot S I B) :=
  object [
    ("Version", string "1.0.2"),
    ("Method", string "set"),
    ("IPCam", object [
      ("SystemOperation", object [
        ("Upgrade", object [
          ("Enabled", bool true),
          ("Status", string ""),
          ("error", string "")])]),
      ("ChannelManager", object [
        ("enableChannel", string ""),
        ("ChannelList", ofIntText channel),
        ("Operation", string "SetChannel"),
        ("OperationProperty", object [("opt", .array [])])])]),
    ("Authorization", authorization verify userName userPwd)]

def deleteChannel (channel : I) (verify userName userPwd : S) : List (Piece S I B) :=
  [.lit "\x7b\n",
    .lit "       \"Method\":\"set\",\n",
    .lit "       \"IPCam\":\x7b\n",
    .lit "                   \"ChannelManager\":\x7b\n",
    .lit "                                       \"ChannelList\":\"", .int channel, .lit "\",\n",
    .lit "                                       \"Operation\":\"DelChannel\"\n",
    .lit "                                       \x7d\n",
    .lit "                 \x7d,\n",
    .lit "       \"Authorization\":\x7b\n",
    .lit "          \"Verify\":\"", .str verify, .lit "\",\n",
    .lit "          \"username\":\"", .str userName, .lit "\",\n",
    .lit "          \"password\":\"", .str userPwd, .lit "\"\n",
    .lit "    \x7d\n",
    .lit "\x7d"]

def channelDeletion (channel : I) (verify userName userPwd : S) : Value (Slot S I B) :=
  object [
    ("Method", string "set"),
    ("IPCam", object [
      ("ChannelManager", object [
        ("ChannelList", ofIntText channel),
        ("Operation", string "DelChannel")])]),
    ("Authorization", authorization verify userName userPwd)]

def setGWOneKeyUpdate (isEnabled : B) (verify userName userPwd : S) : List (Piece S I B) :=
  [.lit "\x7b\n",
    .lit "   \"Method\":\"set\",\n",
    .lit "   \"IPCam\":\x7b\n",
    .lit "           \"SystemOperation\":\x7b\n",
    .lit "                   \"Upgrade\":\x7b\n",
    .lit "                           \"Enabled\":true,\n",
    .lit "                           \"EnabledUpgradeChannel\":", .bool isEnabled, .lit "\n",
    .lit "                   \x7d\n",
    .lit "           \x7d\n",
    .lit "   \x7d,\n",
    .lit "   \"Authorization\":\x7b\n",
    .lit "       \"Verify\":\"", .str verify, .lit "\",\n",
    .lit "       \"username\":\"", .str userName, .lit "\",\n",
    .lit "       \"password\":\"", .str userPwd, .lit "\"\n",
    .lit "       \x7d\n",
    .lit "\x7d"]

def gatewayUpdate (isEnabled : B) (verify userName userPwd : S) : Value (Slot S I B) :=
  object [
    ("Method", string "set"),
    ("IPCam", object [
      ("SystemOperation", object [
        ("Upgrade", object [
          ("Enabled", bool true),
          ("EnabledUpgradeChannel", ofBool isEnabled)])])]),
    ("Authorization", authorization verify userName userPwd)]

def modifyDevicePwd (verify userName userPwd userVerify : S) : List (Piece S I B) :=
  [.lit "\x7b\n",
    .lit "   \"Method\":\"set\",\n",
    .lit "   \"IPCam\":\x7b\x7d,\n",
    .lit "   \"Authorization\":\x7b\n",
    .lit "       \"Verify\":\"", .str verify, .lit "\",\n",
    .lit "       \"username\":\"", .str userName, .lit "\",\n",
    .lit "       \"password\":\"", .str userPwd, .lit "\"\n",
    .lit "       \x7d,\n",
    .lit "   \"UserManager\":\x7b\n",
    .lit "       \"Method\":\"modify\",\n",
    .lit "       \"Verify\":\"", .str userVerify, .lit "\",\n",
    .lit "       \"username\":\"\",\n",
    .lit "       \"password\":\"\"\n",
    .lit "   \x7d\n",
    .lit "\x7d"]

def devicePwd (verify userName userPwd userVerify : S) : Value (Slot S I B) :=
  object [
    ("Method", string "set"),
    ("IPCam", object []),
    ("Authorization", authorization verify userName userPwd),
    ("UserManager", userManager userVerify)]

def timeSyncGW (verify utcTime localTime userName pwd : S) : List (Piece S I B) :=
  [.lit "\x7b\n",
    .lit "   \"Method\":\"set\",\n",
    .lit "   \" Version\":\"1.0.0\",\n",
    .lit "   \"IPCam\": \x7b\n",
    .lit "        \"SystemOperation\": \x7b\n",
    .lit "                \"TimeSync\": \x7b\n",
    .lit "                        \"LocalTime\":", .str localTime, .lit ",\n",
    .lit "                        \"UTCTime\":", .str utcTime, .lit ",\n",
    .lit "                        \x7d\n",
    .lit "                \x7d\n",
    .lit "        \x7d,\n",
    .lit "   \"Authorization\":\x7b\n",
    .lit "       \"Verify\":\"", .str verify, .lit "\",\n",
    .lit "       \"username\":\"", .str userName, .lit "\",\n",
    .lit "       \"password\":\"", .str pwd, .lit "\"\n",
    .lit "       \x7d\n",
    .lit "\x7d"]

def timeSync (raw : S → Value (Slot S I B)) (verify utcTime localTime userName pwd : S) :
    Value (Slot S I B) :=
  object [
    ("Method", string "set"),
    (" Version", string "1.0.0"),
    ("IPCam", object [
      ("SystemOperation", object [
        ("TimeSync", object [("LocalTime", raw localTime), ("UTCTime", raw utcTime)])])]),
    ("Authorization", authorization verify userName pwd)]

/-! ## Codes -/

@[match_pattern] abbrev TYPE_DEVICE_SET_SETTING : ℤ := 200
@[match_pattern] abbrev TYPE_DEVICE_SET_TIME_ZONE_SET_DEVICE_PWD : ℤ := 201
@[match_pattern] abbrev TYPE_DEVICE_FIRMWARE_UPGRADE : ℤ := 202
@[match_pattern] abbrev TYPE_DEVICE_RESET_TFCARD : ℤ := 203
@[match_pattern] abbrev TYPE_GW_DEVICE_CHANNEL_UPGRADE : ℤ := 204
@[match_pattern] abbrev TYPE_GW_DEVICE_DELETE_CHANNEL : ℤ := 205
@[match_pattern] abbrev TYPE_GW_DEVICE_ONE_KEY_UPGRADE : ℤ := 206
@[match_pattern] abbrev TYPE_MODIFY_DEVICE_PWD : ℤ := 207
@[match_pattern] abbrev TYPE_GW_TIME_SYNC : ℤ := 208

def codes : List ℤ :=
  [TYPE_DEVICE_SET_SETTING, TYPE_DEVICE_SET_TIME_ZONE_SET_DEVICE_PWD,
    TYPE_DEVICE_FIRMWARE_UPGRADE, TYPE_DEVICE_RESET_TFCARD, TYPE_GW_DEVICE_CHANNEL_UPGRADE,
    TYPE_GW_DEVICE_DELETE_CHANNEL, TYPE_GW_DEVICE_ONE_KEY_UPGRADE, TYPE_MODIFY_DEVICE_PWD,
    TYPE_GW_TIME_SYNC]

/-- The arguments that `getString` reads. -/
def argCount : ℤ → ℕ
  | TYPE_DEVICE_SET_SETTING => 9
  | TYPE_DEVICE_SET_TIME_ZONE_SET_DEVICE_PWD => 6
  | TYPE_GW_DEVICE_CHANNEL_UPGRADE | TYPE_GW_DEVICE_DELETE_CHANNEL
  | TYPE_GW_DEVICE_ONE_KEY_UPGRADE | TYPE_MODIFY_DEVICE_PWD => 4
  | TYPE_GW_TIME_SYNC => 5
  | _ => 3

/-- A known code with arguments of other types, or too few, ends in an exception. -/
def getString (code : ℤ) (objects : List (Object S I B)) : Option (List (Piece S I B)) :=
  match code, objects with
  | TYPE_DEVICE_SET_SETTING, .str verify :: .str userName :: .str pwd :: .bool isPush ::
    .bool isSound :: .str soundType :: .str definition :: .bool isMotionRecord ::
    .str recordList :: _ =>
    some (setDevice verify userName pwd isPush isSound soundType definition isMotionRecord
      recordList)
  | TYPE_DEVICE_SET_TIME_ZONE_SET_DEVICE_PWD, .int timeZone :: .int utcTime :: .str verify ::
    .str userName :: .str pwd :: .str newVerify :: _ =>
    some (getTimeZoneSetWithPassword timeZone utcTime verify userName pwd newVerify)
  | TYPE_DEVICE_FIRMWARE_UPGRADE, .str verify :: .str userName :: .str pwd :: _ =>
    some (setFirmwareUpgrade verify userName pwd)
  | TYPE_DEVICE_RESET_TFCARD, .str verify :: .str userName :: .str pwd :: _ =>
    some (getResetDeviceSDCard verify userName pwd)
  | TYPE_GW_DEVICE_CHANNEL_UPGRADE, .int channel :: .str verify :: .str userName :: .str pwd :: _ =>
    some (updateChannel channel verify userName pwd)
  | TYPE_GW_DEVICE_DELETE_CHANNEL, .int channel :: .str verify :: .str userName :: .str pwd :: _ =>
    some (deleteChannel channel verify userName pwd)
  | TYPE_GW_DEVICE_ONE_KEY_UPGRADE, .bool isEnabled :: .str verify :: .str userName ::
    .str pwd :: _ =>
    some (setGWOneKeyUpdate isEnabled verify userName pwd)
  | TYPE_MODIFY_DEVICE_PWD, .str verify :: .str userName :: .str pwd :: .str userVerify :: _ =>
    some (modifyDevicePwd verify userName pwd userVerify)
  | TYPE_GW_TIME_SYNC, .str verify :: .str utcTime :: .str localTime :: .str userName ::
    .str pwd :: _ =>
    some (timeSyncGW verify utcTime localTime userName pwd)
  | code, _ => if code ∈ codes then none else some [.lit "gg"]

/-- The tree that the message is meant to be. -/
def message (raw : S → Value (Slot S I B)) (code : ℤ) (objects : List (Object S I B)) :
    Option (Value (Slot S I B)) :=
  match code, objects with
  | TYPE_DEVICE_SET_SETTING, .str verify :: .str userName :: .str pwd :: .bool isPush ::
    .bool isSound :: .str soundType :: .str definition :: .bool isMotionRecord ::
    .str recordList :: _ =>
    some (deviceSettings raw verify userName pwd isPush isSound soundType definition
      isMotionRecord recordList)
  | TYPE_DEVICE_SET_TIME_ZONE_SET_DEVICE_PWD, .int timeZone :: .int utcTime :: .str verify ::
    .str userName :: .str pwd :: .str newVerify :: _ =>
    some (timeZoneWithPassword timeZone utcTime verify userName pwd newVerify)
  | TYPE_DEVICE_FIRMWARE_UPGRADE, .str verify :: .str userName :: .str pwd :: _ =>
    some (firmwareUpgrade verify userName pwd)
  | TYPE_DEVICE_RESET_TFCARD, .str verify :: .str userName :: .str pwd :: _ =>
    some (resetSDCard verify userName pwd)
  | TYPE_GW_DEVICE_CHANNEL_UPGRADE, .int channel :: .str verify :: .str userName :: .str pwd :: _ =>
    some (channelUpdate channel verify userName pwd)
  | TYPE_GW_DEVICE_DELETE_CHANNEL, .int channel :: .str verify :: .str userName :: .str pwd :: _ =>
    some (channelDeletion channel verify userName pwd)
  | TYPE_GW_DEVICE_ONE_KEY_UPGRADE, .bool isEnabled :: .str verify :: .str userName ::
    .str pwd :: _ =>
    some (gatewayUpdate isEnabled verify userName pwd)
  | TYPE_MODIFY_DEVICE_PWD, .str verify :: .str userName :: .str pwd :: .str userVerify :: _ =>
    some (devicePwd verify userName pwd userVerify)
  | TYPE_GW_TIME_SYNC, .str verify :: .str utcTime :: .str localTime :: .str userName ::
    .str pwd :: _ =>
    some (timeSync raw verify utcTime localTime userName pwd)
  | _, _ => none

end Jagles.SetDeviceProtocolUtil
