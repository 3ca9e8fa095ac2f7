import Jagles.DownloadStream

set_option autoImplicit false
set_option linter.dupNamespace false

/-!
# The file lists of the Java side (`GLVideoConnect.java`)

The download thread calls `OnDownloadList` for each item of a listing, and with the last
one `mList` goes to the application. `doStopDownload` runs in a thread of the application
and clears `mList` in between; the loop over the items goes on meanwhile.
-/
namespace Jagles.DownloadLists
open Download GuardedRuns

structure DownloadUtil where
  file_name : String
  file_suffix : String
  file_size : ℤ
  deriving DecidableEq

/-- `items` is the listing under way, of which `next` callbacks have begun; `flag` is the
argument of the callback that has added its item and not come to its end. `whole` says
that `mList` was empty when the first of them came and has not been cleared since, and
`passed` collects the listings with the lists that the application got for them. -/
structure GLVideoConnect where
  mList : List DownloadUtil
  mOnDownloadListListener : Bool
  items : List Item
  next : ℕ
  flag : Option ℤ
  whole : Bool
  passed : List (List Item × List DownloadUtil)

def GLVideoConnect.start : GLVideoConnect where
  mList := []
  mOnDownloadListListener := false
  items := []
  next := 0
  flag := none
  whole := true
  passed := []

/-- `list` begins a listing and `drop` ends one whose callbacks stop early. `finish` is the
rest of a callback behind `mList.add`; the listener gets `mList` itself and leaves
`left` in it. -/
inductive Act where
  | list (items : List Item)
  | add
  | finish (left : List DownloadUtil)
  | doStopDownload
  | drop
  | setListener (listener : Bool)

section code

variable (CharToString : List UInt8 → String) (s : GLVideoConnect)

def OnDownloadList (item_fp : List UInt8) (item_size : ℤ) (suffix : List UInt8) (flag : ℤ) :
    GLVideoConnect :=
  { s with
    mList := s.mList ++ [⟨CharToString item_fp, CharToString suffix, item_size⟩]
    next := s.next + 1
    flag := some flag
    whole := if s.next = 0 then decide (s.mList = []) else s.whole }

def endListing : GLVideoConnect := { s with items := [], next := 0, flag := none }

def OnDownloadListEnd (flag : ℤ) (left : List DownloadUtil) : GLVideoConnect :=
  if flag = 1 then
    if s.mOnDownloadListListener then
      endListing { s with mList := left, passed := s.passed ++ [(s.items, s.mList)] }
    else endListing s
  else { s with flag := none }

def step : Act → Option GLVideoConnect
  | .list items => if s.items = [] then some { s with items } else none
  | .add =>
    match s.flag, (itemReports s.items)[s.next]? with
    | none, some (.OnDownloadList item_fp item_size suffix _ flag) =>
      some (OnDownloadList CharToString s item_fp item_size suffix flag)
    | _, _ => none
  | .finish left => s.flag.map fun flag => OnDownloadListEnd s flag left
  | .doStopDownload =>
    some { s with mList := [], whole := if s.next = 0 then s.whole else false }
  | .drop => if s.flag = none then some (endListing s) else none
  | .setListener listener => some { s with mOnDownloadListListener := listener }

end code

variable {CharToString : List UInt8 → String} {s t : GLVideoConnect}

/-- What a listing is to the application. -/
def utils (CharToString : List UInt8 → String) (items : List Item) : List DownloadUtil :=
  items.map fun i => ⟨CharToString i.fp.1, CharToString i.suffix.1, asInt i.file_size.toNat⟩

/-- Every list passed on has exactly the items of its listing. -/
def PassedRight (CharToString : List UInt8 → String) (s : GLVideoConnect) : Prop :=
  ∀ r ∈ s.passed, r.2 = utils CharToString r.1

/-- A list is passed on only if the items of the listing are alone in it. -/
def Meets (s : GLVideoConnect) : Act → Prop
  | .finish _ => s.flag = some 1 → s.mOnDownloadListListener = true → s.whole = true
  | _ => True

instance (s : GLVideoConnect) (a : Act) : Decidable (Meets s a) :=
  match a with
  | .finish _ => inferInstanceAs (Decidable (_ → _))
  | .list _ | .add | .doStopDownload | .drop | .setListener _ => isTrue trivial

structure Sound (CharToString : List UInt8 → String) (s : GLVideoConnect) : Prop where
  next_le : s.next ≤ s.items.length
  flag : ∀ f ∈ s.flag, 0 < s.next ∧ (f = 1 ↔ s.next = s.items.length)
  whole : 0 < s.next → s.whole = true → s.mList = utils CharToString (s.items.take s.next)
  mixed : 0 < s.next → s.whole = false → s.mList.length ≠ s.next

theorem length_utils (items : List Item) : (utils CharToString items).length = items.length := by
  simp [utils]

/-- Before the first item of a listing there is nothing to say. -/
theorem Sound.idle (hnext : s.next = 0) (hflag : s.flag = none) : Sound CharToString s := by
  refine ⟨by omega, fun f hf => ?_, fun hpos => absurd hnext hpos.ne',
    fun hpos => absurd hnext hpos.ne'⟩
  rw [hflag] at hf
  cases hf

/-- What a callback begins with: the next item, and the flag at the last one. -/
theorem add_cases (h : step CharToString s .add = some t) :
    ∃ hlt : s.next < s.items.length,
      t = OnDownloadList CharToString s s.items[s.next].fp.1 (asInt s.items[s.next].file_size.toNat)
        s.items[s.next].suffix.1 (if s.next + 1 = s.items.length then 1 else 0) := by
  simp only [step] at h
  split at h
  · rename_i fp size suffix type flag _ hr
    simp only [itemReports, List.getElem?_mapIdx, Option.map_eq_some_iff] at hr
    obtain ⟨i, hi, hreport⟩ := hr
    obtain ⟨hlt, rfl⟩ := List.getElem?_eq_some_iff.mp hi
    simp only [Item.report, Report.OnDownloadList.injEq] at hreport
    obtain ⟨rfl, rfl, rfl, -, rfl⟩ := hreport
    refine ⟨hlt, (Option.some.inj h).symm.trans ?_⟩
    simp only [decide_eq_true_eq]
  · cases h

theorem Sound.add (hs : Sound CharToString s) (h : step CharToString s .add = some t) :
    Sound CharToString t := by
  obtain ⟨hlt, rfl⟩ := add_cases h
  have htake : utils CharToString (s.items.take (s.next + 1)) =
      utils CharToString (s.items.take s.next) ++ [⟨CharToString s.items[s.next].fp.1,
        CharToString s.items[s.next].suffix.1, asInt s.items[s.next].file_size.toNat⟩] := by
    rw [List.take_succ_eq_append_getElem hlt, utils, List.map_append]
    rfl
  refine ⟨hlt, ?_, fun _ hw => ?_, fun _ hw => ?_⟩
  · intro f hf
    obtain rfl := Option.some.inj hf
    refine ⟨Nat.succ_pos _, ?_⟩
    simp only [OnDownloadList]
    split_ifs with hlast
    · simp [hlast]
    · simp [hlast]
  · simp only [OnDownloadList] at hw ⊢
    rw [htake]
    split_ifs at hw with hfirst
    · simp [of_decide_eq_true hw, hfirst, utils]
    · rw [hs.whole (Nat.pos_of_ne_zero hfirst) hw]
  · simp only [OnDownloadList, List.length_append, List.length_singleton] at hw ⊢
    split_ifs at hw with hfirst
    · have hne : s.mList.length ≠ 0 := by simpa using hw
      omega
    · have hne := hs.mixed (Nat.pos_of_ne_zero hfirst) hw
      omega

theorem Sound.after (hs : Sound CharToString s) {a : Act} (h : step CharToString s a = some t) :
    Sound CharToString t := by
  cases a with
  | list items =>
    simp only [step] at h
    split_ifs at h with hnone
    obtain rfl := Option.some.inj h
    have hzero : s.next = 0 := by simpa [hnone] using hs.next_le
    refine .idle hzero (Option.eq_none_iff_forall_not_mem.mpr fun f hf => ?_)
    exact absurd hzero (hs.flag f hf).1.ne'
  | add => exact hs.add h
  | finish left =>
    obtain ⟨flag, hflag, rfl⟩ := Option.map_eq_some_iff.mp h
    unfold OnDownloadListEnd
    split_ifs
    · exact .idle rfl rfl
    · exact .idle rfl rfl
    · exact ⟨hs.next_le, fun _ hf => (Option.not_mem_none _ hf).elim, hs.whole, hs.mixed⟩
  | doStopDownload =>
    obtain rfl := Option.some.inj h
    refine ⟨hs.next_le, hs.flag, fun hpos hw => ?_, fun hpos _ => hpos.ne⟩
    rw [if_neg hpos.ne'] at hw
    cases hw
  | drop =>
    simp only [step] at h
    split_ifs at h
    obtain rfl := Option.some.inj h
    exact .idle rfl rfl
  | setListener listener =>
    obtain rfl := Option.some.inj h
    exact ⟨hs.next_le, hs.flag, hs.whole, hs.mixed⟩

/-- At the last callback the list is that of the listing exactly if it is whole. -/
theorem Sound.mList_eq_iff (hs : Sound CharToString s) (h : s.flag = some 1) :
    s.mList = utils CharToString s.items ↔ s.whole = true := by
  obtain ⟨hpos, hlast⟩ := hs.flag 1 h
  have hnext : s.next = s.items.length := hlast.mp rfl
  constructor
  · intro heq
    by_contra hw
    refine hs.mixed hpos (by simpa using hw) ?_
    rw [heq, length_utils, hnext]
  · intro hw
    rw [hs.whole hpos hw, hnext, List.take_length]

theorem Sound.passedRight_iff (hs : Sound CharToString s) (hp : PassedRight CharToString s)
    {a : Act} (h : step CharToString s a = some t) : PassedRight CharToString t ↔ Meets s a := by
  have same : t.passed = s.passed → (PassedRight CharToString t ↔ True) := by
    intro heq
    rw [PassedRight, heq]
    exact iff_of_true hp trivial
  cases a with
  | list items =>
    simp only [step] at h
    split_ifs at h
    obtain rfl := Option.some.inj h
    exact same rfl
  | add =>
    obtain ⟨hlt, rfl⟩ := add_cases h
    exact same rfl
  | finish left =>
    obtain ⟨flag, hflag, rfl⟩ := Option.map_eq_some_iff.mp h
    unfold OnDownloadListEnd
    split_ifs with hone hlistener
    · subst hone
      have hall : PassedRight CharToString (endListing { s with
          mList := left, passed := s.passed ++ [(s.items, s.mList)] }) ↔
          s.mList = utils CharToString s.items := by
        simp only [PassedRight, endListing, List.forall_mem_append, List.forall_mem_singleton]
        exact and_iff_right hp
      rw [hall, hs.mList_eq_iff hflag]
      exact ⟨fun hw _ _ => hw, fun hm => hm hflag hlistener⟩
    · exact iff_of_true hp fun _ hl => absurd hl hlistener
    · refine iff_of_true hp fun hf => absurd ?_ hone
      exact Option.some.inj (hflag.symm.trans hf)
  | doStopDownload =>
    obtain rfl := Option.some.inj h
    exact same rfl
  | drop =>
    simp only [step] at h
    split_ifs at h
    obtain rfl := Option.some.inj h
    exact same rfl
  | setListener listener =>
    obtain rfl := Option.some.inj h
    exact same rfl

/-- In every run the lists passed on are right as long as each of them is whole. -/
theorem passedRight_throughout_iff {acts : List Act}
    (h : Run (step CharToString) (fun _ _ => True) .start acts s) :
    Throughout (step CharToString) (PassedRight CharToString) .start acts s ↔
      Run (step CharToString) Meets .start acts s :=
  h.throughout_iff (fun _ _ _ hs _ he => Sound.after hs he)
    (fun _ _ _ hs hp _ he => Sound.passedRight_iff hs hp he) (.idle rfl rfl)
    (fun _ hr => absurd hr List.not_mem_nil)

def listed (name : UInt8) : Item where
  file_type := 1
  file_size := 5
  opera_flag := 0
  suffix := ⟨List.replicate 16 0, List.length_replicate⟩
  fp := ⟨name :: List.replicate 255 0, congrArg (· + 1) List.length_replicate⟩

/-- For names of letters only. -/
def letters (s : List UInt8) : String :=
  String.ofList ((s.takeWhile (· ≠ 0)).map fun b => Char.ofNat b.toNat)

/-- A listing of one file, to a listener that leaves the list as it is. -/
def oneFile (name : UInt8) : List Act :=
  [.list [listed name], .add, .finish (utils letters [listed name])]

/-- `doStopDownload` between two listings makes both come out right. -/
theorem passedRight_stopped_between : ∃ s, s.passed.length = 2 ∧
    Throughout (step letters) (PassedRight letters) .start
      (.setListener true :: oneFile 97 ++ .doStopDownload :: oneFile 98) s := by
  obtain ⟨s, h, hlen⟩ : ∃ s, Run (step letters) Meets .start
      (.setListener true :: oneFile 97 ++ .doStopDownload :: oneFile 98) s ∧
        s.passed.length = 2 :=
    exists_run (by decide +kernel)
  exact ⟨s, hlen, (passedRight_throughout_iff (h.weaken fun _ _ _ => trivial)).mpr h⟩

/-- Without it the second list has the file of the first one in front. -/
theorem not_passedRight : ¬ ∀ (CharToString : List UInt8 → String) (acts : List Act)
    (s : GLVideoConnect), Run (step CharToString) (fun _ _ => True) .start acts s →
      PassedRight CharToString s := by
  intro claim
  obtain ⟨s, h, hlen⟩ : ∃ s, Run (step letters) (fun _ _ => True) .start
      (.setListener true :: oneFile 97 ++ oneFile 98) s ∧
        (s.passed[1]?).map (fun r => (r.1.length, r.2.length)) = some (1, 2) :=
    exists_run (by decide +kernel)
  obtain ⟨r, hr, hlengths⟩ := Option.map_eq_some_iff.mp hlen
  have heq := congrArg List.length (claim letters _ s h r (List.mem_of_getElem? hr))
  rw [length_utils] at heq
  obtain ⟨hitems, hpassed⟩ := Prod.mk.inj hlengths
  omega

end Jagles.DownloadLists
