import Jagles.SetDeviceProtocolUtil

set_option autoImplicit false
set_option linter.dupNamespace false

/-!
# What the device reads

The messages of `DeviceProtocolUtil` and `SetDeviceProtocolUtil`, read as JSON.
-/
namespace Jagles.DeviceMessages
open Json DeviceProtocolUtil SetDeviceProtocolUtil

/-- A builder that is a template, with the arguments in its holes. -/
theorem exists_parse_iff {pieces : List (Piece Text ℤ Bool)} {t : Value (Slot Text ℤ Bool)}
    (template : List (Piece ℕ ℕ ℕ)) (value : Value (Slot ℕ ℕ ℕ)) (h : Reads template value)
    (e : Env) (hp : template.map (Piece.fill e) = pieces) (ht : value.map (Slot.fill e) = t) :
    (∃ j, some t = some j ∧ parse (concat pieces) = some (j.map Slot.leaf)) ↔
      ∀ s ∈ strings pieces, Plain s := by
  subst hp ht
  rw [← parse_template h e]
  exact ⟨fun ⟨j, hj, hparse⟩ => Option.some.inj hj ▸ hparse, fun hparse => ⟨_, rfl, hparse⟩⟩

def env (strs : List Text) (ints : List ℤ) (bools : List Bool) : Env where
  str i := strs.getD i []
  int i := ints.getD i 0
  bool i := bools.getD i false

/-- Every template reads as its value, with numbers for the arguments. -/
theorem device_templates_read :
    Reads (getWifiScanDeviceInfo 0) (wifiScanDeviceInfo 0) ∧
      Reads (getSendWIFIToDevice 0 0 1 2) (sendWIFIToDevice 0 0 1 2) ∧
      Reads (getSendWIFIToDevice2 0 0 1 2 3 4) (sendWIFIToDevice2 0 0 1 2 3 4) ∧
      Reads (getDeviceInfo 0 1 2) (deviceInfo 0 1 2) ∧
      Reads (getLedPwm 0 1 2) (ledPwm 0 1 2) ∧
      Reads (getTFCardInfo 0 1 2) (tfCardInfo 0 1 2) ∧
      Reads (getDeviceTimeZone (fun _ => true) 0 1 0 1 2 3)
        (deviceTimeZone (fun _ => true) 0 1 0 1 2 3) ∧
      Reads (getDeviceTimeZone (fun _ => false) 0 1 0 1 2 3)
        (deviceTimeZone (fun _ => false) 0 1 0 1 2 3) ∧
      Reads (getDeviceLocalWifiInfo 0 0) (deviceLocalWifiInfo 0 0) ∧
      Reads (gwDeviceInfo 0 1 2) (gatewayInfo 0 1 2) ∧
      Reads (getGWChannelInfo 0 1 2 0) (gatewayChannelInfo 0 1 2 0) ∧
      Reads (getChannelBattery 0 1 2) (channelBattery 0 1 2) ∧
      Reads (getChannel 0 1 2) (channel 0 1 2) ∧
      Reads (getGWOneKeyUpdateStatus 0 1 2) (gatewayUpdateStatus 0 1 2) ∧
      Reads (getRequestPutInfo 0 0 1 2) (requestPutInfo 0 0 1 2) ∧
      Reads (getRecordScheduleInfo 0 1 2) (recordScheduleInfo 0 1 2) := by
  decide +kernel

theorem device_iff {code : ℤ} (hcode : code ∈ DeviceProtocolUtil.codes)
    {objects : List (Object Text ℤ Bool)} {pieces : List (Piece Text ℤ Bool)}
    (h : DeviceProtocolUtil.getString List.isEmpty code objects = some pieces) :
    (∃ j, DeviceProtocolUtil.message List.isEmpty code objects = some j ∧
      parse (concat pieces) = some (j.map Slot.leaf)) ↔
      ∀ s ∈ strArgs (objects.take (DeviceProtocolUtil.argCount code)), Plain s := by
  obtain ⟨hscan, hwifi, htoken, hinfo, hled, hcard, hzone, hnewZone, hlocal, hgateway,
    hgatewayChannel, hbattery, hchannel, hstatus, hput, hschedule⟩ := device_templates_read
  unfold DeviceProtocolUtil.getString at h
  split at h
  · rename_i requestId _
    obtain rfl := Option.some.inj h
    exact exists_parse_iff _ _ hscan (env [] [requestId] []) rfl rfl
  · rename_i requestId deviceId wifiSSID pwd _
    obtain rfl := Option.some.inj h
    exact exists_parse_iff _ _ hwifi (env [deviceId, wifiSSID, pwd] [requestId] []) rfl rfl
  · rename_i requestId deviceId wifiSSID pwd accessToken devName _
    obtain rfl := Option.some.inj h
    exact exists_parse_iff _ _ htoken
      (env [deviceId, wifiSSID, pwd, accessToken, devName] [requestId] []) rfl rfl
  · rename_i verify userName pwd _
    obtain rfl := Option.some.inj h
    exact exists_parse_iff _ _ hinfo (env [verify, userName, pwd] [] []) rfl rfl
  · rename_i verify userName pwd _
    obtain rfl := Option.some.inj h
    exact exists_parse_iff _ _ hled (env [verify, userName, pwd] [] []) rfl rfl
  · rename_i verify userName pwd _
    obtain rfl := Option.some.inj h
    exact exists_parse_iff _ _ hcard (env [verify, userName, pwd] [] []) rfl rfl
  · rename_i timeZone utcTime verify userName pwd newVerify _
    obtain rfl := Option.some.inj h
    cases newVerify with
    | nil =>
      refine (exists_parse_iff _ _ hzone
        (env [verify, userName, pwd] [timeZone, utcTime] []) rfl rfl).trans ?_
      change (∀ s ∈ [verify, userName, pwd], Plain s) ↔ ∀ s ∈ [verify, userName, pwd, []], Plain s
      simp [Plain]
    | cons c cs =>
      exact exists_parse_iff _ _ hnewZone
        (env [verify, userName, pwd, c :: cs] [timeZone, utcTime] []) rfl rfl
  · rename_i deviceId requestId _
    obtain rfl := Option.some.inj h
    exact exists_parse_iff _ _ hlocal (env [deviceId] [requestId] []) rfl rfl
  · rename_i verify userName pwd _
    obtain rfl := Option.some.inj h
    exact exists_parse_iff _ _ hgateway (env [verify, userName, pwd] [] []) rfl rfl
  · rename_i verify userName pwd channel _
    obtain rfl := Option.some.inj h
    exact exists_parse_iff _ _ hgatewayChannel (env [verify, userName, pwd] [channel] []) rfl rfl
  · rename_i verify userName pwd _
    obtain rfl := Option.some.inj h
    exact exists_parse_iff _ _ hbattery (env [verify, userName, pwd] [] []) rfl rfl
  · rename_i verify userName pwd _
    obtain rfl := Option.some.inj h
    exact exists_parse_iff _ _ hchannel (env [verify, userName, pwd] [] []) rfl rfl
  · rename_i verify userName pwd _
    obtain rfl := Option.some.inj h
    exact exists_parse_iff _ _ hstatus (env [verify, userName, pwd] [] []) rfl rfl
  · rename_i requestId ssid pwd accessToken _
    obtain rfl := Option.some.inj h
    exact exists_parse_iff _ _ hput (env [ssid, pwd, accessToken] [requestId] []) rfl rfl
  · rename_i verify userName pwd _
    obtain rfl := Option.some.inj h
    exact exists_parse_iff _ _ hschedule (env [verify, userName, pwd] [] []) rfl rfl
  · rw [if_pos hcode] at h
    cases h

/-- For a message without the strings that stand for values. -/
theorem exists_raw_parse_iff {code : ℤ} (hsetting : code ≠ TYPE_DEVICE_SET_SETTING)
    (hsync : code ≠ TYPE_GW_TIME_SYNC) {pieces : List (Piece Text ℤ Bool)}
    {tree : (Text → Value (Slot Text ℤ Bool)) → Option (Value (Slot Text ℤ Bool))}
    (template : List (Piece ℕ ℕ ℕ)) (value : Value (Slot ℕ ℕ ℕ)) (h : Reads template value)
    (e : Env) (hp : template.map (Piece.fill e) = pieces)
    (ht : ∀ raw, tree raw = some (value.map (Slot.fill e))) :
    (∃ raw j, tree raw = some j ∧ parse (concat pieces) = some (j.map Slot.leaf)) ↔
      code ≠ TYPE_DEVICE_SET_SETTING ∧ code ≠ TYPE_GW_TIME_SYNC ∧
        ∀ s ∈ strings pieces, Plain s := by
  have hiff := exists_parse_iff template value h e hp rfl
  constructor
  · rintro ⟨raw, j, hj, hparse⟩
    exact ⟨hsetting, hsync, hiff.mp ⟨j, ht raw ▸ hj, hparse⟩⟩
  · rintro ⟨-, -, hplain⟩
    obtain ⟨j, hj, hparse⟩ := hiff.mpr hplain
    exact ⟨fun _ => .leaf (.lit .null), j, (ht _).trans hj, hparse⟩

/-- A comma stands after the last member of `TimeSync`. -/
theorem timeSyncGW_none (verify utcTime localTime userName pwd : Text) :
    parse (concat (timeSyncGW verify utcTime localTime userName pwd)) = none := by
  let pieces : List (Piece Text ℤ Bool) := timeSyncGW verify utcTime localTime userName pwd
  have hsplit : concat pieces = concat (pieces.take 11) ++
      (concat [.lit ",\n", .lit "                        \x7d\n"] ++ concat (pieces.drop 13)) := by
    rw [← concat_append, ← concat_append]
    rfl
  have hcomma : concat [.lit ",\n", .lit "                        \x7d\n"] =
      44 :: 10 :: (List.replicate 24 32 ++ [125, 10]) := by
    rfl
  change parse (concat pieces) = none
  rw [hsplit, hcomma]
  refine parse_append_none (fun p st => ?_) _
  simpa using tokensFrom_comma_brace p st 24 (10 :: concat (pieces.drop 13))

/-- One closing brace stands at the end, where two objects are open. -/
theorem setDevice_not_read (verify userName userPWD : Text) (isPush isSound : Bool)
    (soundType definition : Text) (isMotionRecord : Bool) (recordList : Text)
    (raw : Text → Value (Slot Text ℤ Bool)) :
    parse (concat (setDevice verify userName userPWD isPush isSound soundType definition
      isMotionRecord recordList)) ≠
      some ((deviceSettings raw verify userName userPWD isPush isSound soundType definition
        isMotionRecord recordList).map Slot.leaf) := by
  intro h
  let pieces : List (Piece Text ℤ Bool) := setDevice verify userName userPWD isPush isSound
    soundType definition isMotionRecord recordList
  have hsplit : concat pieces = concat (pieces.take 42) ++
      concat [.lit "\"", .lit "\n", .lit "               \x7d\n", .lit ""] := by
    rw [← concat_append]
    rfl
  have hend : concat [.lit "\"", .lit "\n", .lit "               \x7d\n", .lit ""] =
      34 :: 10 :: (List.replicate 15 32 ++ [125, 10]) := by
    rfl
  change parse (concat pieces) = _ at h
  rw [hsplit, hend] at h
  obtain ⟨p, st, o1, o2, hr, ho⟩ := tokensFrom_append (parse_eq_some.mp h)
  obtain ⟨v, rfl⟩ := tokensFrom_quote_brace hr
  obtain ⟨members, k, inner, hobject⟩ : ∃ members k inner,
      deviceSettings raw verify userName userPWD isPush isSound soundType definition
        isMotionRecord recordList = .object (members ++ [(k, .object inner)]) :=
    ⟨[_, _, _], _, _, rfl⟩
  rw [tokens_map, hobject, tokens_object_object, List.map_append] at ho
  exact absurd (List.append_inj' ho rfl).2 (by simp [Token.map])

theorem setDevice_templates_read :
    Reads (getTimeZoneSetWithPassword 0 1 0 1 2 3) (timeZoneWithPassword 0 1 0 1 2 3) ∧
      Reads (setFirmwareUpgrade 0 1 2) (firmwareUpgrade 0 1 2) ∧
      Reads (getResetDeviceSDCard 0 1 2) (resetSDCard 0 1 2) ∧
      Reads (updateChannel 0 0 1 2) (channelUpdate 0 0 1 2) ∧
      Reads (deleteChannel 0 0 1 2) (channelDeletion 0 0 1 2) ∧
      Reads (setGWOneKeyUpdate 0 0 1 2) (gatewayUpdate 0 0 1 2) ∧
      Reads (modifyDevicePwd 0 1 2 3) (devicePwd 0 1 2 3) := by
  decide +kernel

theorem setDevice_iff {code : ℤ} (hcode : code ∈ SetDeviceProtocolUtil.codes)
    {objects : List (Object Text ℤ Bool)} {pieces : List (Piece Text ℤ Bool)}
    (h : SetDeviceProtocolUtil.getString code objects = some pieces) :
    (∃ raw j, SetDeviceProtocolUtil.message raw code objects = some j ∧
      parse (concat pieces) = some (j.map Slot.leaf)) ↔
      code ≠ TYPE_DEVICE_SET_SETTING ∧ code ≠ TYPE_GW_TIME_SYNC ∧
        ∀ s ∈ strArgs (objects.take (SetDeviceProtocolUtil.argCount code)), Plain s := by
  obtain ⟨hzone, hfirmware, hreset, hupdate, hdelete, hgateway, hpassword⟩ :=
    setDevice_templates_read
  unfold SetDeviceProtocolUtil.getString at h
  split at h
  · rename_i verify userName pwd isPush isSound soundType definition isMotionRecord recordList _
    obtain rfl := Option.some.inj h
    constructor
    · rintro ⟨raw, j, hj, hparse⟩
      obtain rfl := Option.some.inj hj
      exact (setDevice_not_read _ _ _ _ _ _ _ _ _ raw hparse).elim
    · rintro ⟨hne, -, -⟩
      exact absurd rfl hne
  · rename_i timeZone utcTime verify userName pwd newVerify _
    obtain rfl := Option.some.inj h
    exact exists_raw_parse_iff (by decide) (by decide) _ _ hzone
      (env [verify, userName, pwd, newVerify] [timeZone, utcTime] []) rfl fun _ => rfl
  · rename_i verify userName pwd _
    obtain rfl := Option.some.inj h
    exact exists_raw_parse_iff (by decide) (by decide) _ _ hfirmware
      (env [verify, userName, pwd] [] []) rfl fun _ => rfl
  · rename_i verify userName pwd _
    obtain rfl := Option.some.inj h
    exact exists_raw_parse_iff (by decide) (by decide) _ _ hreset
      (env [verify, userName, pwd] [] []) rfl fun _ => rfl
  · rename_i channel verify userName pwd _
    obtain rfl := Option.some.inj h
    exact exists_raw_parse_iff (by decide) (by decide) _ _ hupdate
      (env [verify, userName, pwd] [channel] []) rfl fun _ => rfl
  · rename_i channel verify userName pwd _
    obtain rfl := Option.some.inj h
    exact exists_raw_parse_iff (by decide) (by decide) _ _ hdelete
      (env [verify, userName, pwd] [channel] []) rfl fun _ => rfl
  · rename_i isEnabled verify userName pwd _
    obtain rfl := Option.some.inj h
    exact exists_raw_parse_iff (by decide) (by decide) _ _ hgateway
      (env [verify, userName, pwd] [] [isEnabled]) rfl fun _ => rfl
  · rename_i verify userName pwd userVerify _
    obtain rfl := Option.some.inj h
    exact exists_raw_parse_iff (by decide) (by decide) _ _ hpassword
      (env [verify, userName, pwd, userVerify] [] []) rfl fun _ => rfl
  · rename_i verify utcTime localTime userName pwd _
    obtain rfl := Option.some.inj h
    constructor
    · rintro ⟨raw, j, -, hparse⟩
      rw [timeSyncGW_none] at hparse
      cases hparse
    · rintro ⟨-, hne, -⟩
      exact absurd rfl hne
  · rw [if_pos hcode] at h
    cases h

/-- What `getString` returns is JSON with every argument in its field exactly when the strings
need no escaping, except for the two messages that never are. -/
theorem messages_read (code : ℤ) (objects : List (Object Text ℤ Bool))
    (pieces : List (Piece Text ℤ Bool)) :
    (code ∈ DeviceProtocolUtil.codes →
      DeviceProtocolUtil.getString List.isEmpty code objects = some pieces →
      ((∃ j, DeviceProtocolUtil.message List.isEmpty code objects = some j ∧
        parse (concat pieces) = some (j.map Slot.leaf)) ↔
        ∀ s ∈ strArgs (objects.take (DeviceProtocolUtil.argCount code)), Plain s)) ∧
    (code ∈ SetDeviceProtocolUtil.codes →
      SetDeviceProtocolUtil.getString code objects = some pieces →
      ((∃ raw j, SetDeviceProtocolUtil.message raw code objects = some j ∧
        parse (concat pieces) = some (j.map Slot.leaf)) ↔
        code ≠ TYPE_DEVICE_SET_SETTING ∧ code ≠ TYPE_GW_TIME_SYNC ∧
          ∀ s ∈ strArgs (objects.take (SetDeviceProtocolUtil.argCount code)), Plain s)) :=
  ⟨fun hcode h => device_iff hcode h, fun hcode h => setDevice_iff hcode h⟩

/-- The argument for `Verify`, with the user `admin` and the given password. -/
def login (pwd : String) : List (Object Text ℤ Bool) :=
  [.str [], .str (text "admin"), .str (text pwd)]

theorem messages_read_login :
    (∃ j, DeviceProtocolUtil.message List.isEmpty TYPE_DEVICE_GET_INFO (login "secret") = some j ∧
      parse (concat (getDeviceInfo [] (text "admin") (text "secret"))) = some (j.map Slot.leaf)) ∧
    ∃ raw j, SetDeviceProtocolUtil.message raw TYPE_DEVICE_RESET_TFCARD (login "secret") = some j ∧
      parse (concat (getResetDeviceSDCard [] (text "admin") (text "secret"))) =
        some (j.map Slot.leaf) :=
  ⟨((messages_read TYPE_DEVICE_GET_INFO (login "secret") _).1 (by decide) rfl).mpr
      (by decide +kernel),
    ((messages_read TYPE_DEVICE_RESET_TFCARD (login "secret") _).2 (by decide) rfl).mpr
      ⟨by decide, by decide, by decide +kernel⟩⟩

/-- A quotation mark in the password. -/
theorem password_not_read :
    ∃ pieces, DeviceProtocolUtil.getString List.isEmpty TYPE_DEVICE_GET_INFO (login "p\"w") =
      some pieces ∧ parse (concat pieces) = none :=
  ⟨_, rfl, Option.isNone_iff_eq_none.mp (by decide +kernel)⟩

end Jagles.DeviceMessages
