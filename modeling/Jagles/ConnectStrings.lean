import Jagles.CStrings

set_option autoImplicit false
set_option linter.dupNamespace false

/-!
# Connection strings (`Connect`, `AddCommand`, `ParseConnectString`)

A connector is told where to connect by a device id, or by an address and a port with a
colon between them, and how to log in by a token, or by a user and a password with a colon
between them.
-/
namespace Jagles.ConnectStrings
open CStrings CString

/-- The byte of `':'`. -/
def colon : UInt8 := 58

def CMD_CONNECT : ℤ := 1

/-- The value of a `short` that gets an `int`. -/
def toShort (v : ℤ) : ℤ := v.bmod (2 ^ 16)

/-- The strings of a queued command. -/
structure JAConnect_Command where
  commandNo : ℤ
  ConnectStr : CString
  verifystr : CString
  deriving DecidableEq

structure JAConnect where
  mDeviceID : CString
  mIP : CString
  mPort : ℤ
  mUser : CString
  mPwd : CString
  mVerify : CString
  mChannelNo : ℤ
  connectStr : CString
  verifyStr : CString
  mCommand : List JAConnect_Command
  deriving DecidableEq

/-- The pointer that `strtok` returned, which is read next. -/
def token (found : Option (CString × CString)) : Except Fault (CString × CString) :=
  match found with
  | some t => .ok t
  | none => .error .null

namespace JAConnect

/-- A connector before its first command. -/
def create : JAConnect := ⟨empty, empty, 0, empty, empty, empty, 0, empty, empty, []⟩

def addCommand (s : JAConnect) (cmdno : ℤ) (connstr verifystr : Option CString) :
    Except Fault JAConnect := do
  let ConnectStr ← match connstr with
    | some c => strcpy 80 c
    | none => .ok empty
  let verifystr ← match verifystr with
    | some v => strcpy 200 v
    | none => .ok empty
  return { s with mCommand := s.mCommand ++ [⟨cmdno, ConnectStr, verifystr⟩] }

def connect (s : JAConnect) (connectstr verifystr : CString) (channel : ℤ) :
    Except Fault JAConnect := do
  let connectStr ← strcpy 80 connectstr
  let verifyStr ← strcpy 100 verifystr
  { s with mChannelNo := channel, connectStr, verifyStr }.addCommand CMD_CONNECT
    (some connectstr) (some verifystr)

/-- The part of `ParseConnectString` for the address. -/
def parseAddress (s : JAConnect) (connstr : CString) : Except Fault JAConnect :=
  if !connstr.strchr colon then do
    let mDeviceID ← strcpy 20 connstr
    return { s with mDeviceID }
  else do
    let (lip, rest) ← token (connstr.strtok colon)
    let mIP ← strcpy 80 lip
    let (lip, _) ← token (rest.strtok colon)
    return { s with mIP, mPort := toShort (atoi lip) }

/-- The part of `ParseConnectString` for the login. -/
def parseVerify (s : JAConnect) (verifystr : CString) : Except Fault JAConnect :=
  if !verifystr.strchr colon then do
    let mVerify ← strcpy 200 verifystr
    return { s with mVerify }
  else do
    let (luser, rest) ← token (verifystr.strtok colon)
    let mUser ← strcpy 20 luser
    match rest.strtok colon with
    | some (luser, _) =>
      let mPwd ← strcpy 40 luser
      return { s with mUser, mPwd }
    | none => return { s with mUser }

/-- The fields that `ParseConnectString` clears first. -/
def cleared (s : JAConnect) : JAConnect :=
  { s with mDeviceID := empty, mIP := empty, mPwd := empty, mVerify := empty, mPort := 0 }

def parseConnectString (s : JAConnect) (connstr verifystr : CString) : Except Fault JAConnect := do
  let s ← s.cleared.parseAddress connstr
  s.parseVerify verifystr

end JAConnect

/-! ## What a string parses to -/

theorem token_eq_ok {found : Option (CString × CString)} {t : CString × CString} :
    token found = .ok t ↔ found = some t := by
  cases found <;> simp [token]

theorem bind_eq_ok {α β : Type} {x : Except Fault α} {f : α → Except Fault β} {b : β} :
    (x >>= f) = .ok b ↔ ∃ a, x = .ok a ∧ f a = .ok b := by
  cases x with
  | ok a =>
    constructor
    · intro h
      exact ⟨a, rfl, h⟩
    · rintro ⟨_, ⟨⟩, h⟩
      exact h
  | error e =>
    constructor
    · intro h
      cases h
    · rintro ⟨_, ⟨⟩, _⟩

theorem parseAddress_eq_ok {s t : JAConnect} {connstr : CString} :
    s.parseAddress connstr = .ok t ↔
      (connstr.strchr colon = false ∧ connstr.strlen < 20 ∧ t = { s with mDeviceID := connstr }) ∨
      (connstr.strchr colon = true ∧ ∃ (ip port : CString) (rest : List (List UInt8)),
        pieces colon connstr.bytes = ip.bytes :: port.bytes :: rest ∧ ip.strlen < 80 ∧
          t = { s with mIP := ip, mPort := toShort (atoi port) }) := by
  unfold JAConnect.parseAddress
  cases hcolon : connstr.strchr colon with
  | false =>
    simp only [Bool.not_false, if_true, bind_eq_ok, strcpy_eq_ok, true_and, Bool.false_eq_true,
      false_and, or_false]
    constructor
    · rintro ⟨_, ⟨hlen, rfl⟩, ⟨⟩⟩
      exact ⟨hlen, rfl⟩
    · rintro ⟨hlen, rfl⟩
      exact ⟨connstr, ⟨hlen, rfl⟩, rfl⟩
  | true =>
    simp only [Bool.not_true, Bool.false_eq_true, if_false, bind_eq_ok, strcpy_eq_ok, token_eq_ok,
      Bool.true_eq_false, false_and, false_or, true_and]
    constructor
    · rintro ⟨⟨ip, rest⟩, hip, _, ⟨hlen, rfl⟩, ⟨port, last⟩, hport, ⟨⟩⟩
      refine ⟨ip, port, pieces colon last.bytes, ?_, hlen, rfl⟩
      rw [strtok_eq_some hip, strtok_eq_some hport]
    · rintro ⟨ip, port, words, hpieces, hlen, rfl⟩
      obtain ⟨lip, rest, hip, hbytes, hrest⟩ := exists_strtok hpieces
      obtain rfl := CString.ext hbytes
      obtain ⟨lport, last, hport, hbytes, _⟩ := exists_strtok hrest
      obtain rfl := CString.ext hbytes
      exact ⟨(lip, rest), hip, lip, ⟨hlen, rfl⟩, (lport, last), hport, rfl⟩

theorem parseVerify_eq_ok {s t : JAConnect} {verifystr : CString} :
    s.parseVerify verifystr = .ok t ↔
      (verifystr.strchr colon = false ∧ verifystr.strlen < 200 ∧
        t = { s with mVerify := verifystr }) ∨
      (verifystr.strchr colon = true ∧ ∃ (user : CString) (words : List (List UInt8)),
        pieces colon verifystr.bytes = user.bytes :: words ∧ user.strlen < 20 ∧
          ((words = [] ∧ t = { s with mUser := user }) ∨
            ∃ (pwd : CString) (rest : List (List UInt8)), words = pwd.bytes :: rest ∧
              pwd.strlen < 40 ∧ t = { s with mUser := user, mPwd := pwd })) := by
  unfold JAConnect.parseVerify
  cases hcolon : verifystr.strchr colon with
  | false =>
    simp only [Bool.not_false, if_true, bind_eq_ok, strcpy_eq_ok, true_and, Bool.false_eq_true,
      false_and, or_false]
    constructor
    · rintro ⟨_, ⟨hlen, rfl⟩, ⟨⟩⟩
      exact ⟨hlen, rfl⟩
    · rintro ⟨hlen, rfl⟩
      exact ⟨verifystr, ⟨hlen, rfl⟩, rfl⟩
  | true =>
    simp only [Bool.not_true, Bool.false_eq_true, if_false, bind_eq_ok, strcpy_eq_ok, token_eq_ok,
      Bool.true_eq_false, false_and, false_or, true_and]
    constructor
    · rintro ⟨⟨user, rest⟩, huser, _, ⟨hlen, rfl⟩, hrest⟩
      refine ⟨user, _, strtok_eq_some huser, hlen, ?_⟩
      cases hpwd : rest.strtok colon with
      | none =>
        simp only [hpwd] at hrest
        cases hrest
        exact .inl ⟨strtok_eq_none.mp hpwd, rfl⟩
      | some found =>
        simp only [hpwd, bind_eq_ok, strcpy_eq_ok] at hrest
        obtain ⟨_, ⟨hshort, rfl⟩, ⟨⟩⟩ := hrest
        exact .inr ⟨found.1, _, strtok_eq_some hpwd, hshort, rfl⟩
    · rintro ⟨user, words, hpieces, hlen, hrest⟩
      obtain ⟨luser, rest, huser, hbytes, hwords⟩ := exists_strtok hpieces
      obtain rfl := CString.ext hbytes
      refine ⟨(luser, rest), huser, luser, ⟨hlen, rfl⟩, ?_⟩
      rcases hrest with ⟨rfl, rfl⟩ | ⟨pwd, others, rfl, hshort, rfl⟩
      · simp only [strtok_eq_none.mpr hwords]
        rfl
      · obtain ⟨lpwd, last, hpwd, hbytes, _⟩ := exists_strtok hwords
        obtain rfl := CString.ext hbytes
        simp only [hpwd, bind_eq_ok, strcpy_eq_ok]
        exact ⟨lpwd, ⟨hshort, rfl⟩, rfl⟩

theorem parseAddress_login {s t : JAConnect} {connstr : CString}
    (h : s.parseAddress connstr = .ok t) : t.mUser = s.mUser ∧ t.mPwd = s.mPwd := by
  rcases parseAddress_eq_ok.mp h with ⟨_, _, rfl⟩ | ⟨_, _, _, _, _, _, rfl⟩ <;> exact ⟨rfl, rfl⟩

theorem parseVerify_address {s t : JAConnect} {verifystr : CString}
    (h : s.parseVerify verifystr = .ok t) :
    t.mDeviceID = s.mDeviceID ∧ t.mIP = s.mIP ∧ t.mPort = s.mPort := by
  rcases parseVerify_eq_ok.mp h with
    ⟨_, _, rfl⟩ | ⟨_, _, _, _, _, ⟨_, rfl⟩ | ⟨_, _, _, _, rfl⟩⟩ <;> exact ⟨rfl, rfl, rfl⟩

/-! ## Round trips -/

/-- What a connection string names: a device, or a port of a host. -/
inductive Address
  | device (id : CString) (colon_free : id.strchr colon = false) (length : id.strlen ≤ 20)
  | host (ip : CString) (port : ℕ) (nonempty : ip ≠ empty) (colon_free : ip.strchr colon = false)
      (positive : 1 ≤ port) (port_le : port ≤ 65535)

def Address.connstr : Address → CString
  | .device id .. => id
  | .host ip port .. => ip.join colon (by decide) (decimal port)

/-- The address fits the fields that take it. -/
def Address.Fits : Address → Prop
  | .device id .. => id.strlen ≤ 19
  | .host ip port .. => ip.strlen ≤ 79 ∧ port ≤ 32767

structure Login where
  user : CString
  password : CString
  colon_free : user.strchr colon = false
  user_length : user.strlen ≤ 19
  password_length : password.strlen ≤ 39

def Login.verifystr (l : Login) : CString := l.user.join colon (by decide) l.password

namespace JAConnect

def HasAddress (s : JAConnect) : Address → Prop
  | .device id .. => s.mDeviceID = id ∧ s.mIP = empty ∧ s.mPort = 0
  | .host ip port .. => s.mDeviceID = empty ∧ s.mIP = ip ∧ s.mPort = port

def HasLogin (s : JAConnect) (l : Login) : Prop := s.mUser = l.user ∧ s.mPwd = l.password

end JAConnect

theorem toShort_eq_self {n : ℕ} (hn : n ≤ 65535) : toShort n = n ↔ n ≤ 32767 := by
  unfold toShort
  rw [Int.bmod_def]
  split <;> omega

theorem mem_colon {s : CString} : colon ∈ s.bytes ↔ s.strchr colon = true := by
  rw [CString.strchr, List.contains_iff_mem]

theorem not_mem_colon {s : CString} : colon ∉ s.bytes ↔ s.strchr colon = false := by
  rw [mem_colon, Bool.not_eq_true]

theorem strchr_join (s t : CString) (h : colon ≠ 0) : (s.join colon h t).strchr colon = true :=
  mem_colon.mp (List.mem_append_right _ List.mem_cons_self)

theorem bytes_eq_nil {s : CString} : s.bytes = [] ↔ s = empty :=
  (CString.ext_iff (y := empty)).symm

theorem colon_not_mem_decimal (n : ℕ) : colon ∉ (decimal n).bytes := by
  intro h
  exact absurd (isDigit_decimalBytes n colon h) (by decide)

/-- The pieces of an address with a port. -/
theorem pieces_host {ip : CString} {port : ℕ} (hip : ip ≠ empty)
    (hfree : ip.strchr colon = false) (hport : 1 ≤ port) :
    pieces colon (ip.join colon (by decide) (decimal port)).bytes =
      [ip.bytes, (decimal port).bytes] := by
  have hdigits : (decimal port).bytes ≠ [] := decimalBytes_ne_nil (by omega)
  change pieces colon (ip.bytes ++ colon :: (decimal port).bytes) = _
  rw [pieces_word_delim (mt bytes_eq_nil.mp hip) (not_mem_colon.mpr hfree),
    pieces_word hdigits (colon_not_mem_decimal port)]

theorem hasAddress_iff {s : JAConnect} (hid : s.mDeviceID = empty) (hip : s.mIP = empty)
    (hport : s.mPort = 0) (a : Address) :
    (∃ t, s.parseAddress a.connstr = .ok t ∧ t.HasAddress a) ↔ a.Fits := by
  simp only [parseAddress_eq_ok]
  cases a with
  | device id colon_free length =>
    constructor
    · rintro ⟨t, ⟨_, hlen, rfl⟩ | ⟨hcolon, _⟩, hhas⟩
      · exact Nat.le_of_lt_succ hlen
      · exact absurd hcolon (by simp [Address.connstr, colon_free])
    · intro hfits
      exact ⟨_, .inl ⟨colon_free, Nat.lt_succ_of_le hfits, rfl⟩, rfl, hip, hport⟩
  | host ip port nonempty colon_free positive port_le =>
    have hcolon : (Address.host ip port nonempty colon_free positive port_le).connstr.strchr colon =
        true := strchr_join ip (decimal port) (by decide)
    have hpieces := pieces_host nonempty colon_free positive
    constructor
    · rintro ⟨t, ⟨hnot, _⟩ | ⟨_, ip', port', rest, hsplit, hlen, rfl⟩, _, hsame, hvalue⟩
      · exact absurd hnot (by simp [hcolon])
      · rw [Address.connstr, hpieces] at hsplit
        obtain ⟨hfirst, hsecond⟩ := List.cons.inj hsplit
        obtain ⟨hdigits, _⟩ := List.cons.inj hsecond
        rw [← CString.ext hdigits, atoi_decimalBytes rfl] at hvalue
        rw [← CString.ext hfirst] at hlen
        dsimp only at hvalue
        rw [toShort_eq_self port_le] at hvalue
        exact ⟨Nat.le_of_lt_succ hlen, hvalue⟩
    · rintro ⟨hlen, hle⟩
      have hfits : ip.strlen < 80 := Nat.lt_succ_of_le hlen
      have hshort : toShort (atoi (decimal port)) = port := by
        rw [atoi_decimalBytes rfl]
        exact (toShort_eq_self port_le).mpr hle
      exact ⟨{ s with mIP := ip, mPort := toShort (atoi (decimal port)) },
        .inr ⟨hcolon, ip, decimal port, [], hpieces, hfits, rfl⟩, hid, rfl, hshort⟩

theorem hasLogin_iff {s : JAConnect} (hpwd : s.mPwd = empty) (l : Login) :
    (∃ t, s.parseVerify l.verifystr = .ok t ∧ t.HasLogin l) ↔
      l.user ≠ empty ∧ l.password.strchr colon = false := by
  have hcolon : l.verifystr.strchr colon = true := strchr_join l.user l.password (by decide)
  have hpieces : pieces colon l.verifystr.bytes = if l.user.bytes = [] then
      pieces colon l.password.bytes else l.user.bytes :: pieces colon l.password.bytes :=
    pieces_append_delim (not_mem_colon.mpr l.colon_free) l.password.bytes
  have hpassword : (pieces colon l.password.bytes).headD [] = l.password.bytes ↔
      colon ∉ l.password.bytes := headD_pieces_eq_self
  rw [not_mem_colon] at hpassword
  constructor
  · rintro ⟨t, ht, hname, hsame⟩
    rcases parseVerify_eq_ok.mp ht with ⟨hnot, _⟩ | ⟨_, user, words, hsplit, _, hwords⟩
    · exact absurd hnot (by simp [hcolon])
    · have hread : t.mUser = user ∧ t.mPwd.bytes = words.headD [] := by
        rcases hwords with ⟨rfl, rfl⟩ | ⟨pwd, rest, rfl, _, rfl⟩
        · exact ⟨rfl, congrArg CString.bytes hpwd⟩
        · exact ⟨rfl, rfl⟩
      rw [hname, hsame] at hread
      obtain ⟨rfl, hword⟩ := hread
      -- a token is never empty
      have huser : l.user ≠ empty :=
        mt bytes_eq_nil.mpr (ne_nil_of_mem_pieces (hsplit ▸ List.mem_cons_self))
      rw [hpieces, if_neg (mt bytes_eq_nil.mp huser)] at hsplit
      rw [← (List.cons.inj hsplit).2] at hword
      exact ⟨huser, hpassword.mp hword.symm⟩
  · rintro ⟨huser, hfree⟩
    rw [if_neg (mt bytes_eq_nil.mp huser)] at hpieces
    have hword := hpassword.mpr hfree
    cases hrest : pieces colon l.password.bytes with
    | nil =>
      rw [hrest] at hpieces hword
      have hempty : empty = l.password := CString.ext hword
      exact ⟨{ s with mUser := l.user }, parseVerify_eq_ok.mpr (.inr ⟨hcolon, l.user, [], hpieces,
        Nat.lt_succ_of_le l.user_length, .inl ⟨rfl, rfl⟩⟩), rfl, hpwd.trans hempty⟩
    | cons word rest =>
      rw [hrest, List.headD_cons] at hword
      rw [hrest, hword] at hpieces
      exact ⟨{ s with mUser := l.user, mPwd := l.password }, parseVerify_eq_ok.mpr (.inr ⟨hcolon,
        l.user, _, hpieces, Nat.lt_succ_of_le l.user_length, .inr ⟨l.password, rest, rfl,
          Nat.lt_succ_of_le l.password_length, rfl⟩⟩), rfl, rfl⟩

theorem parseConnectString_eq_ok {s t : JAConnect} {connstr verifystr : CString} :
    s.parseConnectString connstr verifystr = .ok t ↔ ∃ u,
      s.cleared.parseAddress connstr = .ok u ∧ u.parseVerify verifystr = .ok t :=
  bind_eq_ok

theorem hasAddress_parseVerify_iff {u t : JAConnect} {verifystr : CString}
    (ht : u.parseVerify verifystr = .ok t) (a : Address) : t.HasAddress a ↔ u.HasAddress a := by
  obtain ⟨hid, hip, hport⟩ := parseVerify_address ht
  cases a <;> simp only [JAConnect.HasAddress, hid, hip, hport]

/-- An address and a login are parsed back as far as they fit the fields and `strtok` can
tell their parts. -/
theorem parseConnectString_roundTrip (s : JAConnect) (a : Address) (l : Login) :
    (∃ t, s.parseConnectString a.connstr l.verifystr = .ok t ∧ t.HasAddress a ∧ t.HasLogin l) ↔
      a.Fits ∧ l.user ≠ empty ∧ l.password.strchr colon = false := by
  have haddress := hasAddress_iff (s := s.cleared) rfl rfl rfl a
  simp only [parseConnectString_eq_ok]
  constructor
  · rintro ⟨t, ⟨u, hu, ht⟩, ha, hl⟩
    exact ⟨haddress.mp ⟨u, hu, (hasAddress_parseVerify_iff ht a).mp ha⟩,
      (hasLogin_iff (parseAddress_login hu).2 l).mp ⟨t, ht, hl⟩⟩
  · rintro ⟨hfits, hlogin⟩
    obtain ⟨u, hu, hua⟩ := haddress.mpr hfits
    obtain ⟨t, ht, hl⟩ := (hasLogin_iff (parseAddress_login hu).2 l).mpr hlogin
    exact ⟨t, ⟨u, hu, ht⟩, (hasAddress_parseVerify_iff ht a).mpr hua, hl⟩

/-! ## Strings that stop the parser -/

/-- The parser gets through a connection string: an id fits its field, and an address has a
port. -/
def AddressParses (connstr : CString) : Prop :=
  if connstr.strchr colon then 2 ≤ (pieces colon connstr.bytes).length else connstr.strlen ≤ 19

/-- The parser gets through a verification string: there is a user, and the user and the
password fit their fields. -/
def VerifyParses (verifystr : CString) : Prop :=
  verifystr.strchr colon = true →
    match pieces colon verifystr.bytes with
    | [] => False
    | [user] => user.length ≤ 19
    | user :: pwd :: _ => user.length ≤ 19 ∧ pwd.length ≤ 39

theorem exists_parseAddress {s : JAConnect} {connstr : CString} (h : connstr.strlen < 80) :
    (∃ t, s.parseAddress connstr = .ok t) ↔ AddressParses connstr := by
  simp only [parseAddress_eq_ok, AddressParses]
  cases hcolon : connstr.strchr colon with
  | false =>
    simp only [Bool.false_eq_true, false_and, or_false, true_and, if_false]
    constructor
    · rintro ⟨t, hlen, _⟩
      exact Nat.le_of_lt_succ hlen
    · intro hlen
      exact ⟨_, Nat.lt_succ_of_le hlen, rfl⟩
  | true =>
    simp only [Bool.true_eq_false, false_and, false_or, true_and, if_true]
    constructor
    · rintro ⟨t, ip, port, rest, hpieces, _⟩
      rw [hpieces]
      exact Nat.le_add_left 2 rest.length
    · intro hlen
      match hpieces : pieces colon connstr.bytes with
      | [] | [_] => simp [hpieces] at hlen
      | ip :: port :: rest =>
        have hip : ip.length < 80 := (length_le_of_pieces_eq_cons hpieces).trans_lt h
        obtain ⟨lip, rest, _, rfl, hrest⟩ := exists_strtok hpieces
        obtain ⟨lport, last, _, rfl, _⟩ := exists_strtok hrest
        exact ⟨_, lip, lport, _, rfl, hip, rfl⟩

theorem exists_parseVerify {s : JAConnect} {verifystr : CString} (h : verifystr.strlen < 200) :
    (∃ t, s.parseVerify verifystr = .ok t) ↔ VerifyParses verifystr := by
  simp only [parseVerify_eq_ok, VerifyParses]
  cases hcolon : verifystr.strchr colon with
  | false => simp [h]
  | true =>
    simp only [Bool.true_eq_false, false_and, false_or, true_and, true_implies]
    match hpieces : pieces colon verifystr.bytes with
    | [] => simp
    | [user] =>
      obtain ⟨luser, rest, _, rfl, _⟩ := exists_strtok hpieces
      constructor
      · rintro ⟨t, user, words, hsplit, hlen, _⟩
        rw [(List.cons.inj hsplit).1]
        exact Nat.le_of_lt_succ hlen
      · intro hlen
        exact ⟨_, luser, [], rfl, Nat.lt_succ_of_le hlen, .inl ⟨rfl, rfl⟩⟩
    | user :: pwd :: others =>
      obtain ⟨luser, rest, _, rfl, hrest⟩ := exists_strtok hpieces
      obtain ⟨lpwd, last, _, rfl, _⟩ := exists_strtok hrest
      constructor
      · rintro ⟨t, user, words, hsplit, hlen, ⟨hnil, _⟩ | ⟨pwd, _, rfl, hshort, _⟩⟩
        · rw [hnil] at hsplit
          exact absurd (List.cons.inj hsplit).2 (List.cons_ne_nil _ _)
        · obtain ⟨huser, hrest⟩ := List.cons.inj hsplit
          rw [huser, (List.cons.inj hrest).1]
          exact ⟨Nat.le_of_lt_succ hlen, Nat.le_of_lt_succ hshort⟩
      · rintro ⟨hlen, hshort⟩
        exact ⟨_, luser, _, rfl, Nat.lt_succ_of_le hlen,
          .inr ⟨lpwd, others, rfl, Nat.lt_succ_of_le hshort, rfl⟩⟩

theorem exists_parseConnectString {s : JAConnect} {connstr verifystr : CString}
    (hconn : connstr.strlen < 80) (hverify : verifystr.strlen < 200) :
    (∃ t, s.parseConnectString connstr verifystr = .ok t) ↔
      AddressParses connstr ∧ VerifyParses verifystr := by
  simp only [parseConnectString_eq_ok]
  rw [← exists_parseAddress (s := s.cleared) hconn]
  constructor
  · rintro ⟨t, u, hu, ht⟩
    exact ⟨⟨u, hu⟩, (exists_parseVerify hverify).mp ⟨t, ht⟩⟩
  · rintro ⟨⟨u, hu⟩, hparses⟩
    obtain ⟨t, ht⟩ := (exists_parseVerify (s := u) hverify).mpr hparses
    exact ⟨t, u, hu, ht⟩

/-- The strings of a connect fit the buffers of the connector and of its command, which
carries them. -/
theorem connect_eq_ok {s u : JAConnect} {connectstr verifystr : CString} {channel : ℤ} :
    s.connect connectstr verifystr channel = .ok u ↔
      connectstr.strlen < 80 ∧ verifystr.strlen < 100 ∧
        u = { s with
          mChannelNo := channel
          connectStr := connectstr
          verifyStr := verifystr
          mCommand := s.mCommand ++ [⟨CMD_CONNECT, connectstr, verifystr⟩] } := by
  simp only [JAConnect.connect, JAConnect.addCommand, bind_eq_ok, strcpy_eq_ok]
  constructor
  · rintro ⟨_, ⟨hconn, rfl⟩, _, ⟨hverify, rfl⟩, _, ⟨_, rfl⟩, _, ⟨_, rfl⟩, ⟨⟩⟩
    exact ⟨hconn, hverify, rfl⟩
  · rintro ⟨hconn, hverify, rfl⟩
    exact ⟨_, ⟨hconn, rfl⟩, _, ⟨hverify, rfl⟩, _, ⟨hconn, rfl⟩, _, ⟨by omega, rfl⟩, rfl⟩

/-- What an address and a login parse back to, and which strings of a connect the parser gets
through. -/
theorem connectStrings_iff (s r : JAConnect) (a : Address) (l : Login)
    (connectstr verifystr : CString) (channel : ℤ) :
    ((∃ t, r.parseConnectString a.connstr l.verifystr = .ok t ∧ t.HasAddress a ∧ t.HasLogin l) ↔
      a.Fits ∧ l.user ≠ empty ∧ l.password.strchr colon = false) ∧
    ∀ u, s.connect connectstr verifystr channel = .ok u →
      ∃ cmd, u.mCommand = s.mCommand ++ [cmd] ∧
        ((∃ t, r.parseConnectString cmd.ConnectStr cmd.verifystr = .ok t) ↔
          AddressParses connectstr ∧ VerifyParses verifystr) := by
  refine ⟨parseConnectString_roundTrip r a l, fun u h => ?_⟩
  obtain ⟨hconn, hverify, rfl⟩ := connect_eq_ok.mp h
  exact ⟨_, rfl, exists_parseConnectString hconn (hverify.trans (by decide))⟩

/-- `"cam"`. -/
def camera : CString := ⟨[99, 97, 109], by simp⟩

/-- `"u"` with the password `"p"`. -/
def login : Login := ⟨⟨[117], by simp⟩, ⟨[112], by simp⟩, rfl, by decide, by decide⟩

theorem connectStrings_iff_camera :
    (∃ t, JAConnect.create.parseConnectString
        (Address.device camera rfl (by decide)).connstr login.verifystr = .ok t ∧
      t.HasAddress (.device camera rfl (by decide)) ∧ t.HasLogin login) ∧
    ∃ cmd, [⟨CMD_CONNECT, camera, login.verifystr⟩] = JAConnect.create.mCommand ++ [cmd] ∧
      ∃ t, JAConnect.create.parseConnectString cmd.ConnectStr cmd.verifystr = .ok t := by
  have hfits : (Address.device camera rfl (by decide)).Fits := by
    change camera.strlen ≤ 19
    decide
  have haddress : AddressParses camera := by
    change (3 : ℕ) ≤ 19
    decide
  have hverify : VerifyParses login.verifystr := by
    intro _
    change (1 : ℕ) ≤ 19 ∧ (1 : ℕ) ≤ 39
    decide
  have h := connectStrings_iff JAConnect.create JAConnect.create
    (.device camera rfl (by decide)) login camera login.verifystr 0
  obtain ⟨cmd, hcmd, hparse⟩ := h.2
    { JAConnect.create with
      connectStr := camera
      verifyStr := login.verifystr
      mCommand := [⟨CMD_CONNECT, camera, login.verifystr⟩] } rfl
  exact ⟨h.1.mpr ⟨hfits, by decide, by decide⟩, cmd, hcmd, hparse.mpr ⟨haddress, hverify⟩⟩

/-- An id of 20 characters. -/
def longId : CString := repeated 20 97 (by decide)

/-- `":"`. -/
def onlyColon : CString := ⟨[colon], by simp [colon]⟩

/-- An id of 20 characters does not fit, and `":"` has no address to copy. -/
theorem connectStrings_stop :
    (¬ ∃ t, JAConnect.create.parseConnectString
        (Address.device longId rfl (strlen_repeated ..).le).connstr login.verifystr = .ok t ∧
      t.HasAddress (.device longId rfl (strlen_repeated ..).le) ∧ t.HasLogin login) ∧
    ∃ u cmd, JAConnect.create.connect onlyColon login.verifystr 0 = .ok u ∧ u.mCommand = [cmd] ∧
      u.parseConnectString cmd.ConnectStr cmd.verifystr = .error .null := by
  constructor
  · rintro ⟨t, ht, _⟩
    cases ht
  · exact ⟨{ JAConnect.create with
      connectStr := onlyColon
      verifyStr := login.verifystr
      mCommand := [⟨CMD_CONNECT, onlyColon, login.verifystr⟩] }, _, rfl, rfl, rfl⟩

end Jagles.ConnectStrings
