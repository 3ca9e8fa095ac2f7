import Mathlib.Tactic

set_option autoImplicit false
set_option linter.dupNamespace false

/-!
# Search for recordings (`JAConnect::DoSearchRec`)

The task thread asks the connector for one page of records after the other and reports
each record, and then the end. The pages are the library's; a connector copies each of
them into an array of its own. Other threads may take the connector away meanwhile.
`none` is the result of code that leaves its arrays or follows a null pointer.
-/
namespace Jagles.RecordSearch

def JAP2P_REC_FILES_MAX : ℕ := 200

structure jap2p_rec_file where
  channel : UInt32
  type : UInt32
  begin_time : UInt32
  end_time : UInt32
  quality : UInt32
  deriving DecidableEq

/-- The record of the new library has the same fields. -/
structure kp2p_rec_file where
  channel : UInt32
  type : UInt32
  begin_time : UInt32
  end_time : UInt32
  quality : UInt32
  deriving DecidableEq

/-- The record of the old library. -/
structure stFileRecord where
  chn : Int32
  type : Int32
  starttime : Int64
  endtime : Int64
  deriving DecidableEq

def kp2p_rec_file.copied (r : kp2p_rec_file) : jap2p_rec_file :=
  ⟨r.channel, r.type, r.begin_time, r.end_time, r.quality⟩

def stFileRecord.copied (r : stFileRecord) : jap2p_rec_file :=
  ⟨r.chn.toUInt32, r.type.toUInt32, r.starttime.toUInt64.toUInt32, r.endtime.toUInt64.toUInt32, 0⟩

structure jap2p_rec_files where
  cnt : ℕ
  records : Fin JAP2P_REC_FILES_MAX → jap2p_rec_file

namespace jap2p_rec_files

def zeroed : jap2p_rec_files := ⟨0, fun _ => ⟨0, 0, 0, 0, 0⟩⟩

/-- The loop that writes a page into the array, from index `i` on. -/
def fill (f : jap2p_rec_files) (i : ℕ) : List jap2p_rec_file → Option jap2p_rec_files
  | [] => some f
  | r :: rs =>
    if h : i < JAP2P_REC_FILES_MAX then
      fill { f with records := Function.update f.records ⟨i, h⟩ r } (i + 1) rs
    else none

def record (f : jap2p_rec_files) (i : ℕ) : Option jap2p_rec_file :=
  if h : i < JAP2P_REC_FILES_MAX then some (f.records ⟨i, h⟩) else none

end jap2p_rec_files

/-- The page becomes `recFiles`. -/
def findFileNext {Rec : Type} (copied : Rec → jap2p_rec_file) (rec : List Rec) :
    Option jap2p_rec_files :=
  jap2p_rec_files.fill { jap2p_rec_files.zeroed with cnt := rec.length } 0 (rec.map copied)

/-- `NULL` when the library returns `NULL`. -/
def JAP2PConnector2.findFileNext (rec : Option (List kp2p_rec_file)) :
    Option (Option jap2p_rec_files) :=
  match rec with
  | some rec => (RecordSearch.findFileNext kp2p_rec_file.copied rec).map some
  | none => some none

/-- The pointer is followed without a look at it. -/
def JAP2PConnector.findFileNext (recs : Option (List stFileRecord)) :
    Option (Option jap2p_rec_files) :=
  match recs with
  | some recs => (RecordSearch.findFileNext stFileRecord.copied recs).map some
  | none => none

/-- What the library behind `mP2p` returns when it is asked for a page. -/
inductive Answer where
  | KCP_P2P (rec : Option (List kp2p_rec_file))
  | UDX_P2P (recs : Option (List stFileRecord))

def Answer.findFileNext : Answer → Option (Option jap2p_rec_files)
  | .KCP_P2P rec => JAP2PConnector2.findFileNext rec
  | .UDX_P2P recs => JAP2PConnector.findFileNext recs

structure Command where
  StartTime : Int64
  EndTime : Int64
  channelNo : Int32

/-- The arguments of `findFileTaskStart`. -/
structure Task where
  chn : UInt8
  recfile_starttime : Int32
  recfile_endtime : Int32
  recfile_type : ℕ

def Command.task (cmd : Command) : Task :=
  ⟨cmd.channelNo.toInt8.toUInt8, cmd.StartTime.toInt32, cmd.EndTime.toInt32, 0xf⟩

structure OnSearchData where
  channel : UInt32
  type : UInt8
  begin_time : UInt32
  end_time : UInt32
  quality : UInt8
  isend : UInt8
  deriving DecidableEq

def jap2p_rec_file.report (r : jap2p_rec_file) : OnSearchData :=
  ⟨r.channel, r.type.toUInt8, r.begin_time, r.end_time, r.quality.toUInt8, 0⟩

def theEnd : OnSearchData := ⟨0, 0, 0, 0, 0, 1⟩

/-- What a search meets. `mP2p` is the `mHandle` of the connector, if there is one, and
`start` what the library returns to a task. `visits` has for each turn of the loop `none`
when the connector is gone, or else the answer of the library; after them the library has
no more to give. `closing` says whether the connector is still there after the loop. -/
structure Search where
  mCallback : Bool
  mIsConnected : Bool
  mP2p : Option ℕ
  start : Task → ℤ
  visits : List (Option Answer)
  closing : Bool

namespace Search

def findFileTaskStart (mHandle : ℕ) (start : Task → ℤ) (t : Task) : ℤ :=
  if mHandle = 0 then -1 else start t

/-- The loop. It is left by `break` (`true`) or by `return -1` (`false`). A library is
asked only about handles that it has given out. -/
def loop (known : Bool) : List (Option Answer) → Option (List OnSearchData × Bool)
  | [] => if known then some ([], true) else none
  | none :: _ => some ([], false)
  | some a :: visits =>
    if known then
      match a.findFileNext with
      | none => none
      | some none => some ([], true)
      | some (some recs) =>
        if recs.cnt = 0 then some ([], true)
        else do
          let page ← (List.range recs.cnt).mapM recs.record
          let (later, done) ← loop known visits
          some (page.map jap2p_rec_file.report ++ later, done)
    else none

/-- The calls of `OnSearchData` and the result. -/
def DoSearchRec (s : Search) (cmd : Command) : Option (List OnSearchData × ℤ) :=
  let heard (l : List OnSearchData) := if s.mCallback then l else []
  if !s.mIsConnected then some ([], -1)
  else do
    let mHandle ← s.mP2p
    let mSearchRecHandle := findFileTaskStart mHandle s.start cmd.task
    if mSearchRecHandle = 0 then some ([], -1)
    else
      let (reports, done) ← loop (decide (mHandle ≠ 0)) s.visits
      if !done then some (heard reports, -1)
      else if s.closing then some (heard (reports ++ [theEnd]), 0)
      else none

end Search

/-- The records of an answer, as they are copied. -/
def Answer.records : Answer → List jap2p_rec_file
  | .KCP_P2P rec => (rec.getD []).map kp2p_rec_file.copied
  | .UDX_P2P recs => (recs.getD []).map stFileRecord.copied

/-- A page fits the array, and the old library does not return `NULL`. -/
def Answer.Fits : Answer → Prop
  | .KCP_P2P rec => (rec.getD []).length ≤ JAP2P_REC_FILES_MAX
  | .UDX_P2P recs => recs ≠ none ∧ (recs.getD []).length ≤ JAP2P_REC_FILES_MAX

namespace Search

/-- The turns of the loop up to the first one without records. -/
def turns : List (Option Answer) → List (Option Answer)
  | [] => []
  | v :: visits => if (v.map Answer.records).getD [] = [] then [v] else v :: turns visits

/-- The records of the pages that the library returns, in their order. -/
def returned (visits : List (Option Answer)) : List jap2p_rec_file :=
  (turns visits).flatMap fun v => (v.map Answer.records).getD []

/-- Every record is reported once, in order, and then the end. -/
def Completes (s : Search) (cmd : Command) : Prop :=
  ∃ ret, s.DoSearchRec cmd = some ((returned s.visits).map jap2p_rec_file.report ++ [theEnd], ret)

/-- The device is connected and has a session, the search starts, the connector stays,
and every page fits. -/
structure Meets (s : Search) (cmd : Command) : Prop where
  callback : s.mCallback = true
  connected : s.mIsConnected = true
  started : ∃ mHandle, s.mP2p = some mHandle ∧ mHandle ≠ 0 ∧ s.start cmd.task ≠ 0
  pages : ∀ v ∈ turns s.visits, ∃ a, v = some a ∧ a.Fits
  closing : s.closing = true

end Search

section Copy
variable {f : jap2p_rec_files}

theorem fill_none {i : ℕ} {rs : List jap2p_rec_file} (hi : i ≤ JAP2P_REC_FILES_MAX)
    (h : JAP2P_REC_FILES_MAX < i + rs.length) : f.fill i rs = none := by
  induction rs generalizing f i with
  | nil =>
    rw [List.length_nil] at h
    omega
  | cons r rs ih =>
    rw [List.length_cons] at h
    unfold jap2p_rec_files.fill
    split
    · exact ih (by omega) (by omega)
    · rfl

/-- The records before `i` stay, and those from `i` on are those of the list. -/
theorem fill_some {i : ℕ} {l : List jap2p_rec_file} (h : i + l.length ≤ JAP2P_REC_FILES_MAX) :
    ∃ g, f.fill i l = some g ∧ g.cnt = f.cnt ∧ (∀ j < i, g.record j = f.record j) ∧
      ∀ k < l.length, g.record (i + k) = l[k]? := by
  induction l generalizing f i with
  | nil => exact ⟨f, rfl, rfl, fun _ _ => rfl, fun k hk => absurd hk (Nat.not_lt_zero k)⟩
  | cons r l ih =>
    rw [List.length_cons] at h
    have hi : i < JAP2P_REC_FILES_MAX := by omega
    obtain ⟨g, hg, hcnt, hbefore, hfrom⟩ :=
      ih (f := { f with records := Function.update f.records ⟨i, hi⟩ r }) (i := i + 1) (by omega)
    refine ⟨g, ?_, hcnt, fun j hj => ?_, fun k hk => ?_⟩
    · unfold jap2p_rec_files.fill
      rw [dif_pos hi, hg]
    · rw [hbefore j (by omega)]
      have hne : (⟨j, by omega⟩ : Fin JAP2P_REC_FILES_MAX) ≠ ⟨i, hi⟩ := by
        intro heq
        have := congrArg Fin.val heq
        simp only at this
        omega
      simp only [jap2p_rec_files.record, dif_pos (show j < JAP2P_REC_FILES_MAX by omega),
        Function.update_of_ne hne]
    · cases k with
      | zero =>
        rw [Nat.add_zero, hbefore i (by omega)]
        simp only [jap2p_rec_files.record, dif_pos hi, Function.update_self, List.getElem?_cons_zero]
      | succ k =>
        rw [List.length_cons] at hk
        rw [List.getElem?_cons_succ, ← hfrom k (by omega)]
        congr 1
        omega

theorem mapM_range {α : Type} {n : ℕ} {g : ℕ → Option α} {l : List α}
    (hlen : l.length = n) (h : ∀ k < n, g k = l[k]?) : (List.range n).mapM g = some l := by
  induction n generalizing l with
  | zero =>
    obtain rfl := List.length_eq_zero_iff.mp hlen
    rfl
  | succ n ih =>
    have hlast := h n (Nat.lt_succ_self n)
    rw [List.getElem?_eq_getElem (by omega)] at hlast
    have hinit := ih (l := l.take n) (by rw [List.length_take]; omega) fun k hk => by
      rw [h k (by omega), List.getElem?_take, if_pos hk]
    rw [List.range_succ, List.mapM_append, hinit]
    simp only [List.mapM_cons, hlast, List.mapM_nil]
    have hall : l.take n ++ [l[n]] = l := by
      rw [List.take_append_getElem, List.take_of_length_le (by omega)]
    exact congrArg some hall

theorem findFileNext_fits {Rec : Type} (copied : Rec → jap2p_rec_file) {l : List Rec}
    (h : l.length ≤ JAP2P_REC_FILES_MAX) : ∃ g, findFileNext copied l = some g ∧
      (g.cnt = 0 ↔ l.map copied = []) ∧
      (List.range g.cnt).mapM g.record = some (l.map copied) := by
  obtain ⟨g, hg, hcnt, -, hfrom⟩ := fill_some (i := 0)
    (f := { jap2p_rec_files.zeroed with cnt := l.length }) (l := l.map copied)
    (by rw [List.length_map]; omega)
  have hcnt : g.cnt = l.length := hcnt
  refine ⟨g, hg, ?_, mapM_range (by rw [List.length_map, hcnt]) fun k hk => ?_⟩
  · rw [hcnt, List.map_eq_nil_iff, List.length_eq_zero_iff]
  · rw [← hfrom k (by rw [List.length_map]; omega), Nat.zero_add]

theorem findFileNext_over {Rec : Type} (copied : Rec → jap2p_rec_file) {l : List Rec}
    (h : JAP2P_REC_FILES_MAX < l.length) : findFileNext copied l = none :=
  fill_none (Nat.zero_le _) (by rw [List.length_map]; omega)

end Copy


namespace Answer
variable {a : Answer}

/-- A page that fits can be read back record by record. -/
theorem fits_cases (h : a.Fits) : a.findFileNext = some none ∧ a.records = [] ∨
    ∃ g, a.findFileNext = some (some g) ∧ (g.cnt = 0 ↔ a.records = []) ∧
      (List.range g.cnt).mapM g.record = some a.records := by
  cases a with
  | KCP_P2P rec =>
    cases rec with
    | none => exact .inl ⟨rfl, rfl⟩
    | some rec =>
      obtain ⟨g, hg, hcnt, hread⟩ := findFileNext_fits kp2p_rec_file.copied (l := rec) h
      refine .inr ⟨g, ?_, hcnt, hread⟩
      simp only [Answer.findFileNext, JAP2PConnector2.findFileNext, hg, Option.map_some]
  | UDX_P2P recs =>
    cases recs with
    | none => exact absurd rfl h.1
    | some recs =>
      obtain ⟨g, hg, hcnt, hread⟩ := findFileNext_fits stFileRecord.copied (l := recs) h.2
      refine .inr ⟨g, ?_, hcnt, hread⟩
      simp only [Answer.findFileNext, JAP2PConnector.findFileNext, hg, Option.map_some]

theorem not_fits (h : ¬ a.Fits) : a.findFileNext = none := by
  cases a with
  | KCP_P2P rec =>
    cases rec with
    | none => exact absurd (Nat.zero_le _) h
    | some rec =>
      have hover := findFileNext_over kp2p_rec_file.copied (l := rec) (Nat.lt_of_not_le h)
      simp only [Answer.findFileNext, JAP2PConnector2.findFileNext, hover, Option.map_none]
  | UDX_P2P recs =>
    cases recs with
    | none => rfl
    | some recs =>
      have hlong : ¬ recs.length ≤ JAP2P_REC_FILES_MAX := fun hle => h ⟨Option.some_ne_none _, hle⟩
      have hover := findFileNext_over stFileRecord.copied (Nat.lt_of_not_le hlong)
      simp only [Answer.findFileNext, JAP2PConnector.findFileNext, hover, Option.map_none]

end Answer

namespace Search

section Loop
variable {a : Answer} {visits : List (Option Answer)}

theorem turns_cons (v : Option Answer) : turns (v :: visits) =
    if (v.map Answer.records).getD [] = [] then [v] else v :: turns visits := rfl

theorem loop_fault (h : ¬ a.Fits) : loop true (some a :: visits) = none := by
  simp only [loop, Answer.not_fits h, if_true]

theorem loop_last (h : a.Fits) (hnone : a.records = []) :
    loop true (some a :: visits) = some ([], true) := by
  rcases Answer.fits_cases h with ⟨hnull, -⟩ | ⟨g, hg, hcnt, -⟩
  · simp only [loop, hnull, if_true]
  · simp only [loop, hg, if_true, if_pos (hcnt.mpr hnone)]

theorem loop_page (h : a.Fits) (hsome : a.records ≠ []) : loop true (some a :: visits) =
    (loop true visits).map fun r => (a.records.map jap2p_rec_file.report ++ r.1, r.2) := by
  rcases Answer.fits_cases h with ⟨-, hnone⟩ | ⟨g, hg, hcnt, hread⟩
  · exact absurd hnone hsome
  · simp only [loop, hg, if_true, if_neg fun h0 => hsome (hcnt.mp h0), hread]
    cases loop true visits with
    | none => rfl
    | some r => rfl

/-- The loop comes to its `break` exactly when the connector stays and every page fits,
and then each record has been reported. -/
theorem loop_iff {rs : List OnSearchData} : loop true visits = some (rs, true) ↔
    (∀ v ∈ turns visits, ∃ a, v = some a ∧ a.Fits) ∧
      rs = (returned visits).map jap2p_rec_file.report := by
  induction visits generalizing rs with
  | nil => simp [loop, turns, returned, eq_comm]
  | cons v visits ih =>
    cases v with
    | none => simp [loop, turns]
    | some a =>
      have hmem : some a ∈ turns (some a :: visits) := by
        rw [turns_cons]
        split <;> exact List.mem_cons_self
      by_cases hfits : a.Fits
      · by_cases hnone : a.records = []
        · have hturns : turns (some a :: visits) = [some a] := if_pos hnone
          rw [loop_last hfits hnone, returned, hturns]
          simp [hfits, hnone, eq_comm]
        · have hturns : turns (some a :: visits) = some a :: turns visits := if_neg hnone
          rw [loop_page hfits hnone, returned, hturns, List.flatMap_cons, List.map_append]
          simp only [List.forall_mem_cons, Option.map_some, Option.getD_some]
          constructor
          · intro h
            obtain ⟨⟨l, done⟩, hl, heq⟩ := Option.map_eq_some_iff.mp h
            obtain ⟨rfl, rfl⟩ := Prod.mk.inj heq
            obtain ⟨hrest, rfl⟩ := ih.mp hl
            exact ⟨⟨⟨a, rfl, hfits⟩, hrest⟩, rfl⟩
          · rintro ⟨⟨-, hrest⟩, rfl⟩
            rw [ih.mpr ⟨hrest, rfl⟩]
            rfl
      · rw [loop_fault hfits]
        refine iff_of_false (fun h => nomatch h) fun h => ?_
        obtain ⟨b, heq, hb⟩ := h.1 _ hmem
        obtain rfl := Option.some.inj heq
        exact hfits hb

/-- The loop reports records only. -/
theorem loop_isend {known : Bool} {rs : List OnSearchData} {done : Bool}
    (h : loop known visits = some (rs, done)) : ∀ r ∈ rs, r.isend = 0 := by
  have hnone : ∀ {l : List OnSearchData} {d e : Bool}, some ([], d) = some (l, e) →
      ∀ r ∈ l, r.isend = 0 := by
    intro l d e heq
    obtain ⟨rfl, -⟩ := Prod.mk.inj (Option.some.inj heq)
    exact fun r hr => nomatch hr
  induction visits generalizing rs done with
  | nil =>
    unfold loop at h
    split at h
    · exact hnone h
    · cases h
  | cons v visits ih =>
    cases v with
    | none => exact hnone h
    | some a =>
      unfold loop at h
      split at h
      · split at h
        · cases h
        · exact hnone h
        · split at h
          · exact hnone h
          · obtain ⟨page, -, h⟩ := Option.bind_eq_some_iff.mp h
            obtain ⟨⟨later, d⟩, hlater, h⟩ := Option.bind_eq_some_iff.mp h
            obtain ⟨rfl, rfl⟩ := Prod.mk.inj (Option.some.inj h)
            intro r hr
            rcases List.mem_append.mp hr with hpage | hrest
            · obtain ⟨x, -, rfl⟩ := List.mem_map.mp hpage
              rfl
            · exact ih hlater r hrest
      · cases h

/-- A library is not asked about a handle that it has not given out. -/
theorem loop_unknown (rs : List OnSearchData) : loop false visits ≠ some (rs, true) := by
  cases visits with
  | nil => simp [loop]
  | cons v visits =>
    cases v with
    | none => simp [loop]
    | some a => simp [loop]

end Loop

end Search

section Outcome
variable {s : Search} {cmd : Command}

/-- What is known of a search that comes to an end report. -/
theorem DoSearchRec_end {l : List OnSearchData} {ret : ℤ}
    (h : s.DoSearchRec cmd = some (l ++ [theEnd], ret)) :
    s.mCallback = true ∧ s.mIsConnected = true ∧ s.closing = true ∧ ∃ mHandle,
      s.mP2p = some mHandle ∧ Search.findFileTaskStart mHandle s.start cmd.task ≠ 0 ∧
      Search.loop (decide (mHandle ≠ 0)) s.visits = some (l, true) := by
  have hsilent : some (([] : List OnSearchData), (-1 : ℤ)) ≠ some (l ++ [theEnd], ret) := by
    simp
  unfold Search.DoSearchRec at h
  simp only at h
  split at h
  · exact absurd h hsilent
  · rename_i hconnected
    obtain ⟨mHandle, hp2p, h⟩ := Option.bind_eq_some_iff.mp h
    split at h
    · exact absurd h hsilent
    · rename_i hstart
      obtain ⟨⟨reports, done⟩, hloop, h⟩ := Option.bind_eq_some_iff.mp h
      simp only at h
      split at h
      · -- the search is given up, and only records have been reported
        obtain ⟨heq, -⟩ := Prod.mk.inj (Option.some.inj h)
        have hmem : theEnd ∈ l ++ [theEnd] := List.mem_append_right _ (List.mem_singleton_self _)
        rw [← heq] at hmem
        split at hmem
        · have hend := Search.loop_isend hloop _ hmem
          cases hend
        · cases hmem
      · rename_i hdone
        split at h
        · rename_i hclosing
          obtain ⟨heq, -⟩ := Prod.mk.inj (Option.some.inj h)
          split at heq
          · rename_i hcallback
            obtain rfl := List.append_inj_left' heq rfl
            obtain rfl : done = true := by simpa using hdone
            exact ⟨hcallback, by simpa using hconnected, hclosing, mHandle, hp2p, hstart, hloop⟩
          · exact absurd heq.symm (List.append_ne_nil_of_right_ne_nil _ (List.cons_ne_nil _ _))
        · cases h

end Outcome

/-- For every command, every state of the connection and all pages of the library. -/
theorem search_completes_iff (s : Search) (cmd : Command) : s.Completes cmd ↔ s.Meets cmd := by
  constructor
  · rintro ⟨ret, h⟩
    obtain ⟨hcallback, hconnected, hclosing, mHandle, hp2p, hstart, hloop⟩ := DoSearchRec_end h
    have hsession : mHandle ≠ 0 := by
      rintro rfl
      exact Search.loop_unknown _ hloop
    rw [decide_eq_true hsession] at hloop
    refine ⟨hcallback, hconnected, ⟨mHandle, hp2p, hsession, ?_⟩, (Search.loop_iff.mp hloop).1,
      hclosing⟩
    simpa only [Search.findFileTaskStart, if_neg hsession] using hstart
  · rintro ⟨hcallback, hconnected, ⟨mHandle, hp2p, hsession, hstart⟩, hpages, hclosing⟩
    refine ⟨0, ?_⟩
    have hloop := Search.loop_iff.mpr ⟨hpages, rfl⟩
    simp [Search.DoSearchRec, hcallback, hconnected, hclosing, hp2p, hsession,
      Search.findFileTaskStart, hstart, hloop]

/-- A search on a device that is not connected reports nothing. -/
theorem search_not_complete : ¬ ∀ (s : Search) (cmd : Command), s.Completes cmd := by
  intro claim
  obtain ⟨ret, h⟩ := claim ⟨true, false, some 1, fun _ => 1, [], true⟩ ⟨0, 0, 0⟩
  simp [Search.DoSearchRec] at h

end Jagles.RecordSearch
