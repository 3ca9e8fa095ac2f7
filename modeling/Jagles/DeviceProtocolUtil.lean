import Jagles.JsonTemplates

set_option autoImplicit false
set_option linter.dupNamespace false

/-!
# Device messages (`DeviceProtocolUtil`)

Each message is a concatenation of literals and arguments. Beside each builder stands the
tree that its message is meant to be, with the arguments in their fields.
-/
namespace Jagles.DeviceProtocolUtil
open Json

/-- An argument of `getString`. -/
inductive Object (S I B : Type) where
  | str (s : S)
  | int (z : I)
  | bool (b : B)

variable {S I B : Type}

def strArgs (objects : List (Object S I B)) : List S :=
  objects.filterMap fun
    | .str s => some s
    | _ => none

/-! ## Parts of a tree -/

def string (s : String) : Value (Slot S I B) := .leaf (.lit (.str (text s)))

def number (s : String) : Value (Slot S I B) := .leaf (.lit (.num (text s)))

def bool (b : Bool) : Value (Slot S I B) := .leaf (.lit (.bool b))

def ofStr (s : S) : Value (Slot S I B) := .leaf (.str s)

def ofInt (z : I) : Value (Slot S I B) := .leaf (.int z)

def ofBool (b : B) : Value (Slot S I B) := .leaf (.bool b)

def ofIntText (z : I) : Value (Slot S I B) := .leaf (.intText z)

def object (members : List (String × Value (Slot S I B))) : Value (Slot S I B) :=
  .object (members.map fun (k, t) => (text k, t))

def authorization (verify userName pwd : S) : Value (Slot S I B) :=
  object [("Verify", ofStr verify), ("username", ofStr userName), ("password", ofStr pwd)]

def userManager (verify : S) : Value (Slot S I B) :=
  object [("Method", string "modify"), ("Verify", ofStr verify), ("username", string ""),
    ("password", string "")]

/-! ## Messages -/

def getWifiScanDeviceInfo (requestId : I) : List (Piece S I B) :=
  [.lit "\x7b\"fromApp\":true,\"requestID\":", .int requestId,
    .lit ",\"tokenID\":\"1473433878\",\"command\":\"discovery\"\x7d"]

def wifiScanDeviceInfo (requestId : I) : Value (Slot S I B) :=
  object [
    ("fromApp", bool true),
    ("requestID", ofInt requestId),
    ("tokenID", string "1473433878"),
    ("command", string "discovery")]

def getSendWIFIToDevice (requestId : I) (deviceId wifiSSID pwd : S) : List (Piece S I B) :=
  [.lit "\x7b\n",
    .lit "    \"fromApp\":true,\n",
    .lit "    \"requestID\":", .int requestId, .lit ",\n",
    .lit "    \"deviceID\":\"", .str deviceId, .lit "\",\n",
    .lit "    \"tokenID\":", .lit "754276439", .lit ",\n",
    .lit "    \"command\":\"setup\",\n",
    .lit "    \"Content\":\x7b\n",
    .lit "        \"Ethernet\":\x7b\n",
    .lit "            \"dhcp\":true,\n",
    .lit "            \"Wireless\":\x7b\n",
    .lit "                \"securityMode\":\"WEP\",\n",
    .lit "                \"ssid\":\"", .str wifiSSID, .lit "\",\n",
    .lit "                \"password\":\"", .str pwd, .lit "\"",
    .lit "            \x7d\n",
    .lit "        \x7d\n",
    .lit "    \x7d\n",
    .lit "\x7d"]

def sendWIFIToDevice (requestId : I) (deviceId wifiSSID pwd : S) : Value (Slot S I B) :=
  object [
    ("fromApp", bool true),
    ("requestID", ofInt requestId),
    ("deviceID", ofStr deviceId),
    ("tokenID", number "754276439"),
    ("command", string "setup"),
    ("Content", object [
      ("Ethernet", object [
        ("dhcp", bool true),
        ("Wireless", object [
          ("securityMode", string "WEP"),
          ("ssid", ofStr wifiSSID),
          ("password", ofStr pwd)])])])]

def getSendWIFIToDevice2 (requestID : I) (deviceId wifiSSID pwd accessToken devName : S) :
    List (Piece S I B) :=
  [.lit "\x7b\n",
    .lit "    \"fromApp\":true,\n",
    .lit "    \"requestID\":", .int requestID, .lit ",\n",
    .lit "    \"deviceID\":\"", .str deviceId, .lit "\",\n",
    .lit "    \"tokenID\":", .lit "754276439", .lit ",\n",
    .lit "    \"command\":\"setup\",\n",
    .lit "    \"Content\":\x7b\n",
    .lit "        \"Ethernet\":\x7b\n",
    .lit "            \"dhcp\":true,\n",
    .lit "            \"Wireless\":\x7b\n",
    .lit "                \"securityMode\":\"WEP\",\n",
    .lit "                \"ssid\":\"", .str wifiSSID, .lit "\",\n",
    .lit "                \"password\":\"", .str pwd, .lit "\"",
    .lit "            \x7d\n",
    .lit "        \x7d,\n",
    .lit "        \"BaiduMediaServer\":\x7b\n",
    .lit "            \"accessToken\":\"", .str accessToken, .lit "\",\n",
    .lit "            \"streamName\":\"", .str devName, .lit "\"\n",
    .lit "        \x7d\n",
    .lit "    \x7d\n",
    .lit "\x7d"]

def sendWIFIToDevice2 (requestID : I) (deviceId wifiSSID pwd accessToken devName : S) :
    Value (Slot S I B) :=
  object [
    ("fromApp", bool true),
    ("requestID", ofInt requestID),
    ("deviceID", ofStr deviceId),
    ("tokenID", number "754276439"),
    ("command", string "setup"),
    ("Content", object [
      ("Ethernet", object [
        ("dhcp", bool true),
        ("Wireless", object [
          ("securityMode", string "WEP"),
          ("ssid", ofStr wifiSSID),
          ("password", ofStr pwd)])]),
      ("BaiduMediaServer", object [
        ("accessToken", ofStr accessToken),
        ("streamName", ofStr devName)])])]

def getDeviceInfo (verify userName pwd : S) : List (Piece S I B) :=
  [.lit "\x7b\n",
    .lit "   \"Version\":\"1.0.0\",\n",
    .lit "   \"Method\":\"get\",\n",
    .lit "   \"IPCam\":\x7b\n",
    .lit "           \"DeviceInfo\":\x7b\x7d,\n",
    .lit "           \"ModeSetting\":\x7b\x7d,\n",
    .lit "           \"AlarmSetting\":\x7b\n",
    .lit "                   \"MotionDetection\":\x7b\x7d,\n",
    .lit "                   \"MessagePushSchedule\":[]\n",
    .lit "                   \x7d,\n",
    .lit "           \"SystemOperation\":\x7b\n",
    .lit "                   \"TimeSync\":\x7b\x7d,\n",
    .lit "                   \"DaylightSavingTime\":\x7b",
    .lit "                     \"Week\":[\x7b\x7d,\x7b\x7d]",
    .lit "                     \x7d",
    .lit "                   \x7d,\n",
    .lit "           \"PromptSounds\":\x7b\x7d,\n",
    .lit "           \"RecordManager\":\x7b\x7d,\n",
    .lit "            \"ledPwm\":\x7b",
    .lit "                   \"channelInfo\":[]\n",
    .lit "                   \x7d,\n",
    .lit "           \"powerLineFrequencyMode\":0\n",
    .lit "           \x7d,\n",
    .lit "   \"Authorization\":\x7b\n",
    .lit "           \"Verify\":\"", .str verify, .lit "\",\n",
    .lit "           \"username\":\"", .str userName, .lit "\",\n",
    .lit "           \"password\":\"", .str pwd, .lit "\"\n",
    .lit "           \x7d\n",
    .lit "\x7d"]

def deviceInfo (verify userName pwd : S) : Value (Slot S I B) :=
  object [
    ("Version", string "1.0.0"),
    ("Method", string "get"),
    ("IPCam", object [
      ("DeviceInfo", object []),
      ("ModeSetting", object []),
      ("AlarmSetting", object [
        ("MotionDetection", object []),
        ("MessagePushSchedule", .array [])]),
      ("SystemOperation", object [
        ("TimeSync", object []),
        ("DaylightSavingTime", object [("Week", .array [object [], object []])])]),
      ("PromptSounds", object []),
      ("RecordManager", object []),
      ("ledPwm", object [("channelInfo", .array [])]),
      ("powerLineFrequencyMode", number "0")]),
    ("Authorization", authorization verify userName pwd)]

def getLedPwm (verify username pwd : S) : List (Piece S I B) :=
  [.lit "\x7b\n",
    .lit "   \"Version\":\"1.0.0\",\n",
    .lit "    \"Method\":\"get\",\n",
    .lit "    \"IPCam\":\x7b\n",
    .lit "        \"ledPwm\":\x7b \n",
    .lit "           \"project\":", .lit "0", .lit ",\n",
    .lit "           \"product\":\"\",\n",
    .lit "           \"channelCount\":", .lit "0", .lit ",\n",
    .lit "           \"infraredLampSwitch\":", .lit "0", .lit ",\n",
    .lit "           \"switch\":", .lit "0", .lit ",\n",
    .lit "           \"channelInfo\":[]\n",
    .lit "       \x7d\n",
    .lit "    \x7d,\n",
    .lit "    \"Authorization\":\x7b\n",
    .lit "        \"Verify\":\"", .str verify, .lit "\",\n",
    .lit "        \"username\":\"", .str username, .lit "\",\n",
    .lit "        \"password\":\"", .str pwd, .lit "\"\n",
    .lit "    \x7d\n",
    .lit "\x7d"]

def ledPwm (verify username pwd : S) : Value (Slot S I B) :=
  object [
    ("Version", string "1.0.0"),
    ("Method", string "get"),
    ("IPCam", object [
      ("ledPwm", object [
        ("project", number "0"),
        ("product", string ""),
        ("channelCount", number "0"),
        ("infraredLampSwitch", number "0"),
        ("switch", number "0"),
        ("channelInfo", .array [])])]),
    ("Authorization", authorization verify username pwd)]

def getTFCardInfo (verify userName userPwd : S) : List (Piece S I B) :=
  [.lit "\x7b\n",
    .lit "  \"Version\":\"1.0.0\",\n",
    .lit "  \"Method\":\"get\",\n",
    .lit "  \"IPCam\":\x7b\n",
    .lit "           \"TfcardManager\":\x7b\n",
    .lit "                   \x7d\n",
    .lit "               \x7d,\n",
    .lit "  \"Authorization\":\x7b\n",
    .lit "           \"Verify\":\"", .str verify, .lit "\",\n",
    .lit "           \"username\":\"", .str userName, .lit "\",\n",
    .lit "           \"password\":\"", .str userPwd, .lit "\"\n",
    .lit "           \x7d\n",
    .lit "\x7d"]

def tfCardInfo (verify userName userPwd : S) : Value (Slot S I B) :=
  object [
    ("Version", string "1.0.0"),
    ("Method", string "get"),
    ("IPCam", object [("TfcardManager", object [])]),
    ("Authorization", authorization verify userName userPwd)]

def getRecordScheduleInfo (verify userName userPwd : S) : List (Piece S I B) :=
  [.lit "\x7b\n",
    .lit "  \"Version\":\"1.0.0\",\n",
    .lit "  \"Method\":\"get\",\n",
    .lit "  \"IPCam\":\x7b\n",
    .lit "           \"TfcardManager\":\x7b\n",
    .lit "                   \"TFcard_recordSchedule\":[]\n",
    .lit "                   \x7d\n",
    .lit "               \x7d,\n",
    .lit "  \"Authorization\":\x7b\n",
    .lit "           \"Verify\":\"", .str verify, .lit "\",\n",
    .lit "           \"username\":\"", .str userName, .lit "\",\n",
    .lit "           \"password\":\"", .str userPwd, .lit "\"\n",
    .lit "           \x7d\n",
    .lit "\x7d"]

def recordScheduleInfo (verify userName userPwd : S) : Value (Slot S I B) :=
  object [
    ("Version", string "1.0.0"),
    ("Method", string "get"),
    ("IPCam", object [
      ("TfcardManager", object [("TFcard_recordSchedule", .array [])])]),
    ("Authorization", authorization verify userName userPwd)]

def getDeviceTimeZone (isEmpty : S → Bool) (timeZone utcTime : I)
    (verify userName pwd newVerifyString : S) :
    List (Piece S I B) :=
  ([.lit "\x7b\n",
    .lit "   \"Version\": \"1.0.0\",\n",
    .lit "   \"Method\": \"set\",\n",
    .lit "   \"IPCam\": \x7b\n",
    .lit "        \"SystemOperation\": \x7b\n",
    .lit "                \"TimeSync\": \x7b\n",
    .lit "                        \"LocalTime\":", .int utcTime, .lit ",\n",
    .lit "                        \"UTCTime\":", .int utcTime, .lit ",\n",
    .lit "                        \"TimeZone\":", .int timeZone, .lit "\n",
    .lit "                        \x7d\n",
    .lit "                \x7d\n",
    .lit "        \x7d,\n",
    .lit "   \"Authorization\": \x7b\n",
    .lit "        \"Verify\":\"", .str verify, .lit "\",\n",
    .lit "        \"username\":\"", .str userName, .lit "\",\n",
    .lit "        \"password\":\"", .str pwd, .lit "\"\n",
    .lit "        \x7d\n"] : List (Piece S I B)) ++
  (if isEmpty newVerifyString then []
  else
    [.lit "   ,\"UserManager\":\x7b\n",
      .lit "           \"Method\":\"modify\",\n",
      .lit "           \"Verify\":\"", .str newVerifyString, .lit "\",\n",
      .lit "           \"username\":\"\",\n",
      .lit "           \"password\":\"\"\n",
      .lit "           \x7d\n"] : List (Piece S I B)) ++
  [.lit "\x7d"]

def deviceTimeZone (isEmpty : S → Bool) (timeZone utcTime : I)
    (verify userName pwd newVerifyString : S) :
    Value (Slot S I B) :=
  object ([
    ("Version", string "1.0.0"),
    ("Method", string "set"),
    ("IPCam", object [
      ("SystemOperation", object [
        ("TimeSync", object [
          ("LocalTime", ofInt utcTime),
          ("UTCTime", ofInt utcTime),
          ("TimeZone", ofInt timeZone)])])]),
    ("Authorization", authorization verify userName pwd)] ++
    if isEmpty newVerifyString then [] else [("UserManager", userManager newVerifyString)])

def getDeviceLocalWifiInfo (deviceId : S) (requestId : I) : List (Piece S I B) :=
  [.lit "\x7b\n",
    .lit "  \"jsonrpc\" : \"2.0\",\n",
    .lit "  \"method\" : \"getNearbyAPs\",\n",
    .lit "  \"params\" : \x7b\n",
    .lit "    \"version\":\"1.0\",\n",
    .lit "    \"deviceID\":\"", .str deviceId, .lit "\"\n",
    .lit "  \x7d,\n",
    .lit "  \"id\" :", .int requestId, .lit "\n",
    .lit "\x7d"]

def deviceLocalWifiInfo (deviceId : S) (requestId : I) : Value (Slot S I B) :=
  object [
    ("jsonrpc", string "2.0"),
    ("method", string "getNearbyAPs"),
    ("params", object [("version", string "1.0"), ("deviceID", ofStr deviceId)]),
    ("id", ofInt requestId)]

def gwDeviceInfo (verify userName userPwd : S) : List (Piece S I B) :=
  [.lit "\x7b\n",
    .lit "   \"Versioin\":\"1.0.3\",\n",
    .lit "   \"Method\":\"get\",\n",
    .lit "   \"IPCam\":\x7b\n",
    .lit "           \"DeviceInfo\":\x7b\x7d,\n",
    .lit "           \"SystemOperation\":\x7b\n",
    .lit "                       \"TimeSync\":\x7b\x7d\n",
    .lit "                       \x7d,\n",
    .lit "           \"TfcardManager\":\x7b\n",
    .lit "                       \"Status\":\"\",\n",
    .lit "                       \"TotalSpacesize\":\"\",\n",
    .lit "                       \"LeaveSpacesize\":\"\"\n",
    .lit "                       \x7d,\n",
    .lit "           \"ChannelManager\":\x7b\n",
    .lit "                       \"enableChannel\":\"\"\n",
    .lit "                       \x7d,\n",
    .lit "          \"ChannelInfo\":[]\n",
    .lit "       \x7d,\n",
    .lit "   \"Authorization\":\x7b\n",
    .lit "           \"Verify\":\"", .str verify, .lit "\",\n",
    .lit "           \"username\":\"", .str userName, .lit "\",\n",
    .lit "           \"password\":\"", .str userPwd, .lit "\"\n",
    .lit "       \x7d\n",
    .lit "\x7d"]

def gatewayInfo (verify userName userPwd : S) : Value (Slot S I B) :=
  object [
    ("Versioin", string "1.0.3"),
    ("Method", string "get"),
    ("IPCam", object [
      ("DeviceInfo", object []),
      ("SystemOperation", object [("TimeSync", object [])]),
      ("TfcardManager", object [
        ("Status", string ""),
        ("TotalSpacesize", string ""),
        ("LeaveSpacesize", string "")]),
      ("ChannelManager", object [("enableChannel", string "")]),
      ("ChannelInfo", .array [])]),
    ("Authorization", authorization verify userName userPwd)]

def getGWChannelInfo (verify userName userPwd : S) (channel : I) : List (Piece S I B) :=
  [.lit "\x7b\n",
    .lit "   \"Version\":\"1.0.0\",\n",
    .lit "   \"Method\":\"get\",\n",
    .lit "   \"IPCam\":\x7b\n",
    .lit "           \"DeviceInfo\":\x7b\x7d,",
    .lit "           \"AlarmSetting\":\x7b\n",
    .lit "                   \"MotionDetection\":\x7b\n",
    .lit "                           \"SensitivityLevel\":\"\"\n",
    .lit "                           \x7d,\n",
    .lit "                   \"MessagePushEnabled\":\"\"\n",
    .lit "               \x7d,\n",
    .lit "           \"RecordManager\":\x7b\n",
    .lit "                   \"Mode\":\"\"\n",
    .lit "               \x7d,\n",
    .lit "   \"ChannelManager\":\x7b\n",
    .lit "           \"ChannelList\":\"", .int channel, .lit "\",\n",
    .lit "           \"Operation\":\"GetChannel\"\n",
    .lit "               \x7d,\n",
    .lit "   \"ChannelInfo\":[\x7b\n",
    .lit "           \"Model\":\"\",\n",
    .lit "           \"Version\":\"\",\n",
    .lit "           \"OdmNum\":\"\",\n",
    .lit "           \"SerialNum\":\"\",\n",
    .lit "           \"FWMagic\":\"\"\n",
    .lit "               \x7d],\n",
    .lit "   \"ChannelStatus\":[\x7b",
    .lit "           \"IsLastest\":false",
    .lit "               \x7d],\n",
    .lit "   \"DoorbellManager\":\x7b\n",
    .lit "       \x7d",
    .lit "   \x7d,\n",
    .lit "   \"Authorization\":\x7b\n",
    .lit "           \"Verify\":\"", .str verify, .lit "\",\n",
    .lit "           \"username\":\"", .str userName, .lit "\",\n",
    .lit "           \"password\":\"", .str userPwd, .lit "\"\n",
    .lit "               \x7d\n",
    .lit "\x7d"]

def gatewayChannelInfo (verify userName userPwd : S) (channel : I) : Value (Slot S I B) :=
  object [
    ("Version", string "1.0.0"),
    ("Method", string "get"),
    ("IPCam", object [
      ("DeviceInfo", object []),
      ("AlarmSetting", object [
        ("MotionDetection", object [("SensitivityLevel", string "")]),
        ("MessagePushEnabled", string "")]),
      ("RecordManager", object [("Mode", string "")]),
      ("ChannelManager", object [
        ("ChannelList", ofIntText channel),
        ("Operation", string "GetChannel")]),
      ("ChannelInfo", .array [
        object [
          ("Model", string ""),
          ("Version", string ""),
          ("OdmNum", string ""),
          ("SerialNum", string ""),
          ("FWMagic", string "")]]),
      ("ChannelStatus", .array [object [("IsLastest", bool false)]]),
      ("DoorbellManager", object [])]),
    ("Authorization", authorization verify userName userPwd)]

def getChannelBattery (verify userName userPwd : S) : List (Piece S I B) :=
  [.lit "\x7b\n",
    .lit "   \"Version\":\"1.0.0\",\n",
    .lit "   \"Method\":\"get\",\n",
    .lit "   \"IPCam\":\x7b\n",
    .lit "           \"ChannelStatus\":[\x7b\n",
    .lit "               \x7d],\n",
    .lit "           \"ChannelInfo\":[\x7b\n",
    .lit "                    \"Channel\":\"\",\n",
    .lit "                    \"Model\":\"\",\n",
    .lit "                    \"Version\":\"\"\n",
    .lit "                    \x7d],\n",
    .lit "           \"ChannelManager\":\x7b\n",
    .lit "                       \"enableChannel\":\"\"\n",
    .lit "                       \x7d\n",
    .lit "       \x7d,\n",
    .lit "   \"Authorization\":\x7b\n",
    .lit "       \"Verify\":\"", .str verify, .lit "\",\n",
    .lit "       \"username\":\"", .str userName, .lit "\",\n",
    .lit "       \"password\":\"", .str userPwd, .lit "\"\n",
    .lit "       \x7d\n",
    .lit "\x7d"]

def channelBattery (verify userName userPwd : S) : Value (Slot S I B) :=
  object [
    ("Version", string "1.0.0"),
    ("Method", string "get"),
    ("IPCam", object [
      ("ChannelStatus", .array [object []]),
      ("ChannelInfo", .array [
        object [
          ("Channel", string ""),
          ("Model", string ""),
          ("Version", string "")]]),
      ("ChannelManager", object [("enableChannel", string "")])]),
    ("Authorization", authorization verify userName userPwd)]

def getChannel (verify username password : S) : List (Piece S I B) :=
  [.lit "\x7b\n",
    .lit "   \"Version\":\"1.0.0\",\n",
    .lit "   \"Method\":\"get\",\n",
    .lit "   \"IPCam\":\x7b\n",
    .lit "           \"ChannelInfo\":[\x7b\n",
    .lit "                    \"Channel\":\"\",\n",
    .lit "                    \"Model\":\"\",\n",
    .lit "                    \"Version\":\"\"\n",
    .lit "                    \x7d],\n",
    .lit "           \"ChannelManager\":\x7b\n",
    .lit "                       \"maxChannel\":\"\",\n",
    .lit "                       \"enableChannel\":\"\"\n",
    .lit "                       \x7d\n",
    .lit "       \x7d,\n",
    .lit "   \"Authorization\":\x7b\n",
    .lit "       \"Verify\":\"", .str verify, .lit "\",\n",
    .lit "       \"username\":\"", .str username, .lit "\",\n",
    .lit "       \"password\":\"", .str password, .lit "\"\n",
    .lit "       \x7d\n",
    .lit "\x7d"]

def channel (verify username password : S) : Value (Slot S I B) :=
  object [
    ("Version", string "1.0.0"),
    ("Method", string "get"),
    ("IPCam", object [
      ("ChannelInfo", .array [
        object [
          ("Channel", string ""),
          ("Model", string ""),
          ("Version", string "")]]),
      ("ChannelManager", object [("maxChannel", string ""), ("enableChannel", string "")])]),
    ("Authorization", authorization verify username password)]

def getGWOneKeyUpdateStatus (verify userName userPwd : S) : List (Piece S I B) :=
  [.lit "\x7b\n",
    .lit "   \"Version\":\"1.0.0\",\n",
    .lit "   \"Method\":\"get\",\n",
    .lit "   \"IPCam\":\x7b\n",
    .lit "               \"SystemOperation\":\x7b\n",
    .lit "                       \"UpgradeStatus\":\x7b\n",
    .lit "                       \x7d\n",
    .lit "               \x7d\n",
    .lit "   \x7d,\n",
    .lit "   \"Authorization\":\x7b\n",
    .lit "       \"Verify\":\"", .str verify, .lit "\",\n",
    .lit "       \"username\":\"", .str userName, .lit "\",\n",
    .lit "       \"password\":\"", .str userPwd, .lit "\"\n",
    .lit "       \x7d\n",
    .lit "\x7d"]

def gatewayUpdateStatus (verify userName userPwd : S) : Value (Slot S I B) :=
  object [
    ("Version", string "1.0.0"),
    ("Method", string "get"),
    ("IPCam", object [("SystemOperation", object [("UpgradeStatus", object [])])]),
    ("Authorization", authorization verify userName userPwd)]

def getRequestPutInfo (requestId : I) (SSID password accessToken : S) : List (Piece S I B) :=
  [.lit "\x7b",
    .lit "\"ver\":1,",
    .lit "\"id\":", .int requestId, .lit ",",
    .lit "\"method\":\"put_info\",",
    .lit "\"params\":\x7b",
    .lit "\t\"mode\":\"WEP\",",
    .lit "\t\"ssid\":\"", .str SSID, .lit "\",",
    .lit "\t\"pass\":\"", .str password, .lit "\",",
    .lit "\t\"token\":\"", .str accessToken, .lit "\"",
    .lit "\t\x7d",
    .lit "\x7d"]

def requestPutInfo (requestId : I) (SSID password accessToken : S) : Value (Slot S I B) :=
  object [
    ("ver", number "1"),
    ("id", ofInt requestId),
    ("method", string "put_info"),
    ("params", object [
      ("mode", string "WEP"),
      ("ssid", ofStr SSID),
      ("pass", ofStr password),
      ("token", ofStr accessToken)])]

/-! ## Codes -/

@[match_pattern] abbrev TYPE_BROADCAST_DEVICE_BY_WIFI_SCAN : ℤ := 100
@[match_pattern] abbrev TYPE_BROADCAST_SEND_WIFI_TO_DEVICE : ℤ := 101
@[match_pattern] abbrev TYPE_BROADCAST_SEND_WIFI_TO_DEVICE_BAIDU : ℤ := 102
@[match_pattern] abbrev TYPE_DEVICE_GET_INFO : ℤ := 103
@[match_pattern] abbrev TYPE_DEVICE_LED_PWD_INFO : ℤ := 104
@[match_pattern] abbrev TYPE_DEVICE_TF_CARD_INFO : ℤ := 105
@[match_pattern] abbrev TYPE_DEVICE_GET_TIME_ZONE : ℤ := 106
@[match_pattern] abbrev TYPE_DEVICE_GET_LOCAL_WIFI : ℤ := 107
@[match_pattern] abbrev TYPE_GW_DEVICE_GET_INFO : ℤ := 109
@[match_pattern] abbrev TYPE_GW_DEVICE_CHANNEL_GET_INFO : ℤ := 110
@[match_pattern] abbrev TYPE_GW_DEVICE_CHANNEL_BATTERY : ℤ := 111
@[match_pattern] abbrev TYPE_GW_DEVICE_ENABLE_CHANNEL : ℤ := 112
@[match_pattern] abbrev TYPE_GW_DEVICE_UPGRADE_STATUS : ℤ := 113
@[match_pattern] abbrev TYPE_BROADCAST_BULETOOTH_REQUEST_INFO : ℤ := 114
@[match_pattern] abbrev TYPE_DEVICE_GET_RECORD_SCHEDULE : ℤ := 115

def codes : List ℤ :=
  [TYPE_BROADCAST_DEVICE_BY_WIFI_SCAN, TYPE_BROADCAST_SEND_WIFI_TO_DEVICE,
    TYPE_BROADCAST_SEND_WIFI_TO_DEVICE_BAIDU, TYPE_DEVICE_GET_INFO, TYPE_DEVICE_LED_PWD_INFO,
    TYPE_DEVICE_TF_CARD_INFO, TYPE_DEVICE_GET_TIME_ZONE, TYPE_DEVICE_GET_LOCAL_WIFI,
    TYPE_GW_DEVICE_GET_INFO, TYPE_GW_DEVICE_CHANNEL_GET_INFO, TYPE_GW_DEVICE_CHANNEL_BATTERY,
    TYPE_GW_DEVICE_ENABLE_CHANNEL, TYPE_GW_DEVICE_UPGRADE_STATUS,
    TYPE_BROADCAST_BULETOOTH_REQUEST_INFO, TYPE_DEVICE_GET_RECORD_SCHEDULE]

/-- The arguments that `getString` reads. -/
def argCount : ℤ → ℕ
  | TYPE_BROADCAST_DEVICE_BY_WIFI_SCAN => 1
  | TYPE_DEVICE_GET_LOCAL_WIFI => 2
  | TYPE_BROADCAST_SEND_WIFI_TO_DEVICE | TYPE_GW_DEVICE_CHANNEL_GET_INFO
  | TYPE_BROADCAST_BULETOOTH_REQUEST_INFO => 4
  | TYPE_BROADCAST_SEND_WIFI_TO_DEVICE_BAIDU | TYPE_DEVICE_GET_TIME_ZONE => 6
  | _ => 3

/-- A known code with arguments of other types, or too few, ends in an exception. -/
def getString (isEmpty : S → Bool) (code : ℤ) (objects : List (Object S I B)) :
    Option (List (Piece S I B)) :=
  match code, objects with
  | TYPE_BROADCAST_DEVICE_BY_WIFI_SCAN, .int requestId :: _ =>
    some (getWifiScanDeviceInfo requestId)
  | TYPE_BROADCAST_SEND_WIFI_TO_DEVICE, .int requestId :: .str deviceId :: .str wifiSSID ::
    .str pwd :: _ =>
    some (getSendWIFIToDevice requestId deviceId wifiSSID pwd)
  | TYPE_BROADCAST_SEND_WIFI_TO_DEVICE_BAIDU, .int requestId :: .str deviceId :: .str wifiSSID ::
    .str pwd :: .str accessToken :: .str devName :: _ =>
    some (getSendWIFIToDevice2 requestId deviceId wifiSSID pwd accessToken devName)
  | TYPE_DEVICE_GET_INFO, .str verify :: .str userName :: .str pwd :: _ =>
    some (getDeviceInfo verify userName pwd)
  | TYPE_DEVICE_LED_PWD_INFO, .str verify :: .str userName :: .str pwd :: _ =>
    some (getLedPwm verify userName pwd)
  | TYPE_DEVICE_TF_CARD_INFO, .str verify :: .str userName :: .str pwd :: _ =>
    some (getTFCardInfo verify userName pwd)
  | TYPE_DEVICE_GET_TIME_ZONE, .int timeZone :: .int utcTime :: .str verify :: .str userName ::
    .str pwd :: .str newVerify :: _ =>
    some (getDeviceTimeZone isEmpty timeZone utcTime verify userName pwd newVerify)
  | TYPE_DEVICE_GET_LOCAL_WIFI, .str deviceId :: .int requestId :: _ =>
    some (getDeviceLocalWifiInfo deviceId requestId)
  | TYPE_GW_DEVICE_GET_INFO, .str verify :: .str userName :: .str pwd :: _ =>
    some (gwDeviceInfo verify userName pwd)
  | TYPE_GW_DEVICE_CHANNEL_GET_INFO, .str verify :: .str userName :: .str pwd :: .int channel ::
    _ =>
    some (getGWChannelInfo verify userName pwd channel)
  | TYPE_GW_DEVICE_CHANNEL_BATTERY, .str verify :: .str userName :: .str pwd :: _ =>
    some (getChannelBattery verify userName pwd)
  | TYPE_GW_DEVICE_ENABLE_CHANNEL, .str verify :: .str userName :: .str pwd :: _ =>
    some (getChannel verify userName pwd)
  | TYPE_GW_DEVICE_UPGRADE_STATUS, .str verify :: .str userName :: .str pwd :: _ =>
    some (getGWOneKeyUpdateStatus verify userName pwd)
  | TYPE_BROADCAST_BULETOOTH_REQUEST_INFO, .int requestId :: .str ssid :: .str pwd ::
    .str accessToken :: _ =>
    some (getRequestPutInfo requestId ssid pwd accessToken)
  | TYPE_DEVICE_GET_RECORD_SCHEDULE, .str verify :: .str userName :: .str pwd :: _ =>
    some (getRecordScheduleInfo verify userName pwd)
  | code, _ => if code ∈ codes then none else some [.lit "gg"]

/-- The tree that the message is meant to be. -/
def message (isEmpty : S → Bool) (code : ℤ) (objects : List (Object S I B)) :
    Option (Value (Slot S I B)) :=
  match code, objects with
  | TYPE_BROADCAST_DEVICE_BY_WIFI_SCAN, .int requestId :: _ =>
    some (wifiScanDeviceInfo requestId)
  | TYPE_BROADCAST_SEND_WIFI_TO_DEVICE, .int requestId :: .str deviceId :: .str wifiSSID ::
    .str pwd :: _ =>
    some (sendWIFIToDevice requestId deviceId wifiSSID pwd)
  | TYPE_BROADCAST_SEND_WIFI_TO_DEVICE_BAIDU, .int requestId :: .str deviceId :: .str wifiSSID ::
    .str pwd :: .str accessToken :: .str devName :: _ =>
    some (sendWIFIToDevice2 requestId deviceId wifiSSID pwd accessToken devName)
  | TYPE_DEVICE_GET_INFO, .str verify :: .str userName :: .str pwd :: _ =>
    some (deviceInfo verify userName pwd)
  | TYPE_DEVICE_LED_PWD_INFO, .str verify :: .str userName :: .str pwd :: _ =>
    some (ledPwm verify userName pwd)
  | TYPE_DEVICE_TF_CARD_INFO, .str verify :: .str userName :: .str pwd :: _ =>
    some (tfCardInfo verify userName pwd)
  | TYPE_DEVICE_GET_TIME_ZONE, .int timeZone :: .int utcTime :: .str verify :: .str userName ::
    .str pwd :: .str newVerify :: _ =>
    some (deviceTimeZone isEmpty timeZone utcTime verify userName pwd newVerify)
  | TYPE_DEVICE_GET_LOCAL_WIFI, .str deviceId :: .int requestId :: _ =>
    some (deviceLocalWifiInfo deviceId requestId)
  | TYPE_GW_DEVICE_GET_INFO, .str verify :: .str userName :: .str pwd :: _ =>
    some (gatewayInfo verify userName pwd)
  | TYPE_GW_DEVICE_CHANNEL_GET_INFO, .str verify :: .str userName :: .str pwd :: .int channel ::
    _ =>
    some (gatewayChannelInfo verify userName pwd channel)
  | TYPE_GW_DEVICE_CHANNEL_BATTERY, .str verify :: .str userName :: .str pwd :: _ =>
    some (channelBattery verify userName pwd)
  | TYPE_GW_DEVICE_ENABLE_CHANNEL, .str verify :: .str userName :: .str pwd :: _ =>
    some (channel verify userName pwd)
  | TYPE_GW_DEVICE_UPGRADE_STATUS, .str verify :: .str userName :: .str pwd :: _ =>
    some (gatewayUpdateStatus verify userName pwd)
  | TYPE_BROADCAST_BULETOOTH_REQUEST_INFO, .int requestId :: .str ssid :: .str pwd ::
    .str accessToken :: _ =>
    some (requestPutInfo requestId ssid pwd accessToken)
  | TYPE_DEVICE_GET_RECORD_SCHEDULE, .str verify :: .str userName :: .str pwd :: _ =>
    some (recordScheduleInfo verify userName pwd)
  | _, _ => none

end Jagles.DeviceProtocolUtil
