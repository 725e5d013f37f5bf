import YaqtLib.RunTotals
import YaqtLib.TDLibFile

/-! The downloads of a file (`tdlib/tdlibfile.cpp`). A file asks its wrapper for the download when it is told to load,
and by itself while `autoLoad` is on; a hold-off timer keeps it from asking again at once. Everything a member function
does comes before the signals it emits at its end, so what their handlers call is the next event. -/

namespace YaqtLib

open Runs TdConst

/-- What a file asks of a wrapper. -/
inductive FileRequest where
  | downloadFile (id : Int)
  | cancelDownloadFile (id : Int)
  | deleteFile (id : Int)
  | getFile (id : Int)
  deriving DecidableEq

/-- A file with its wrapper, its timers and what it has asked, the last request first. Wrappers are known by their
addresses, timers by the ids of `startTimer`, none of which is 0. -/
structure LoadingFile extends TDLibFile where
  tdLibWrapper : Option Nat
  autoLoad : Bool
  downloadHoldOffTimer : Nat
  timers : List Nat
  sent : List (Nat × FileRequest)

/-- What reaches a file from its owner, from a wrapper or from the timers. -/
inductive FileEvent where
  /-- The object after `qobject_cast`. -/
  | setTDLibWrapper (tdlib : Option Nat)
  | setAutoLoad (enableAutoLoad : Bool)
  | setClearWithInvalidFileInfo (clear : Bool)
  | setFileInfo (fileInfo : QVariantMap)
  | cancel
  | load
  | getFile
  /-- The signal of a wrapper. -/
  | fileUpdated (tdlib : Nat) (fileId : Int) (fileInfo : QVariantMap)
  | timerEvent (timer : Nat)

namespace LoadingFile

/-! ### The members -/

def emitQueuedSignals (f : LoadingFile) : LoadingFile := { f with queue := .init }

def queueSignal (f : LoadingFile) (signal : TDLibFileSignal) : LoadingFile :=
  { f with queue := f.queue.queueSignal signal }

/-- An id that no running timer has. -/
def newTimer (timers : List Nat) : Nat := timers.foldr max 0 + 1

def startHoldOff (f : LoadingFile) : LoadingFile :=
  { f with downloadHoldOffTimer := newTimer f.timers, timers := newTimer f.timers :: f.timers }

def killHoldOff (f : LoadingFile) : LoadingFile :=
  { f with downloadHoldOffTimer := 0, timers := f.timers.erase f.downloadHoldOffTimer }

/-- The result says whether the wrapper was asked. -/
def downloadFile (f : LoadingFile) : Bool × LoadingFile :=
  match f.tdLibWrapper with
  | none => (false, f)
  | some tdlib =>
      if f.fields.id ≠ 0 ∧ f.downloadHoldOffTimer = 0 ∧ f.fields.isDownloadingActive = false ∧
          f.fields.isDownloadingCompleted = false ∧ f.fields.canBeDownloaded = true then
        (true, { f.startHoldOff with sent := (tdlib, .downloadFile f.fields.id) :: f.sent })
      else (false, f)

/-- `if (autoLoad) downloadFile()`. -/
def downloadIfAutoLoad (f : LoadingFile) : LoadingFile := if f.autoLoad then f.downloadFile.2 else f

def updateTDLibWrapper (f : LoadingFile) (tdlib : Option Nat) : LoadingFile :=
  if tdlib ≠ f.tdLibWrapper then
    let f := { f with tdLibWrapper := tdlib }
    let f := if tdlib.isSome then f.downloadIfAutoLoad else f
    f.queueSignal .tdLib
  else f

def setTDLibWrapper (f : LoadingFile) (tdlib : Option Nat) : LoadingFile := (f.updateTDLibWrapper tdlib).emitQueuedSignals

def setAutoLoad (f : LoadingFile) (enableAutoLoad : Bool) : LoadingFile :=
  if f.autoLoad ≠ enableAutoLoad then
    ({ f with autoLoad := enableAutoLoad }.queueSignal .autoLoad).downloadIfAutoLoad.emitQueuedSignals
  else f

def setClearWithInvalidFileInfo (f : LoadingFile) (clear : Bool) : LoadingFile :=
  if f.clearWithInvalidFileInfo ≠ clear then
    ({ f with clearWithInvalidFileInfo := clear }.queueSignal .clearWithInvalidFileInfo).emitQueuedSignals
  else f

def cancel (f : LoadingFile) : Bool × LoadingFile :=
  match f.tdLibWrapper with
  | none => (false, f)
  | some tdlib =>
      if f.fields.id ≠ 0 ∧ f.fields.isDownloadingActive = true then
        (true, { f with
          sent := (tdlib, .deleteFile f.fields.id) :: (tdlib, .cancelDownloadFile f.fields.id) :: f.sent })
      else (false, f)

/-- A manual load ignores the hold-off timer. -/
def load (f : LoadingFile) : Bool × LoadingFile :=
  (if f.downloadHoldOffTimer ≠ 0 then f.killHoldOff else f).downloadFile

def updateFileInfo (f : LoadingFile) (fileInfo : QVariantMap) : LoadingFile :=
  { f with toTDLibFile := f.toTDLibFile.updateFileInfo fileInfo }

def setFileInfo (f : LoadingFile) (fileInfo : QVariantMap) : LoadingFile :=
  let f := f.updateFileInfo fileInfo
  let f := if f.fields.isDownloadingCompleted = true ∧ f.downloadHoldOffTimer ≠ 0 then f.killHoldOff else f
  f.downloadIfAutoLoad.emitQueuedSignals

def timerEvent (f : LoadingFile) : LoadingFile := f.killHoldOff.downloadIfAutoLoad

def handleFileUpdated (f : LoadingFile) (fileId : Int) (fileInfo : QVariantMap) : LoadingFile :=
  if f.fields.id = fileId then (f.setFileInfo fileInfo).emitQueuedSignals else f

def getFile (f : LoadingFile) : Bool × LoadingFile :=
  match f.tdLibWrapper with
  | none => (false, f)
  | some tdlib =>
      if f.fields.id ≠ 0 then (true, { f with sent := (tdlib, .getFile f.fields.id) :: f.sent }) else (false, f)

/-! ### Files and what happens to them -/

/-- `init`. -/
def init : LoadingFile :=
  { TDLibFile.new with tdLibWrapper := none, autoLoad := false, downloadHoldOffTimer := 0, timers := [], sent := [] }

/-- The constructors, with the wrapper and the information they are given. -/
def ofWrapper (tdlib : Option Nat) : LoadingFile := (init.updateTDLibWrapper tdlib).emitQueuedSignals

def ofFileInfo (tdlib : Option Nat) (fileInfo : QVariantMap) : LoadingFile :=
  ((init.updateTDLibWrapper tdlib).updateFileInfo fileInfo).emitQueuedSignals

inductive Constructed : LoadingFile → Prop where
  | init : Constructed init
  | ofWrapper (tdlib : Option Nat) : Constructed (ofWrapper tdlib)
  | ofFileInfo (tdlib : Option Nat) (fileInfo : QVariantMap) : Constructed (ofFileInfo tdlib fileInfo)

/-- The signal of a wrapper is connected only while the file has this wrapper; a timer fires only while it runs. -/
def step (f : LoadingFile) : FileEvent → LoadingFile
  | .setTDLibWrapper tdlib => f.setTDLibWrapper tdlib
  | .setAutoLoad enableAutoLoad => f.setAutoLoad enableAutoLoad
  | .setClearWithInvalidFileInfo clear => f.setClearWithInvalidFileInfo clear
  | .setFileInfo fileInfo => f.setFileInfo fileInfo
  | .cancel => f.cancel.2
  | .load => f.load.2
  | .getFile => f.getFile.2
  | .fileUpdated tdlib fileId fileInfo =>
      if f.tdLibWrapper = some tdlib then f.handleFileUpdated fileId fileInfo else f
  | .timerEvent timer => if timer ∈ f.timers then f.timerEvent else f

/-! ### What the members keep -/

/-- The file can be asked for, as far as its information says. -/
def Loadable (f : LoadingFile) : Prop :=
  f.tdLibWrapper.isSome = true ∧ f.fields.id ≠ 0 ∧ f.fields.isDownloadingActive = false ∧
    f.fields.isDownloadingCompleted = false ∧ f.fields.canBeDownloaded = true

instance (f : LoadingFile) : Decidable f.Loadable :=
  inferInstanceAs (Decidable (f.tdLibWrapper.isSome = true ∧ f.fields.id ≠ 0 ∧ f.fields.isDownloadingActive = false ∧
    f.fields.isDownloadingCompleted = false ∧ f.fields.canBeDownloaded = true))

/-- The timer that runs is the one the file knows. -/
def Held (f : LoadingFile) : Prop := f.timers = if f.downloadHoldOffTimer = 0 then [] else [f.downloadHoldOffTimer]

/-- A file that loads by itself and can be asked for waits for its timer. -/
def Waits (f : LoadingFile) : Prop := f.autoLoad = true → f.Loadable → f.downloadHoldOffTimer ≠ 0

def isDownload : Nat × FileRequest → Bool
  | (_, .downloadFile _) => true
  | _ => false

@[simp] theorem isDownload_downloadFile (tdlib : Nat) (id : Int) : isDownload (tdlib, .downloadFile id) = true := rfl

@[simp] theorem isDownload_cancelDownloadFile (tdlib : Nat) (id : Int) :
    isDownload (tdlib, .cancelDownloadFile id) = false := rfl

@[simp] theorem isDownload_deleteFile (tdlib : Nat) (id : Int) : isDownload (tdlib, .deleteFile id) = false := rfl

@[simp] theorem isDownload_getFile (tdlib : Nat) (id : Int) : isDownload (tdlib, .getFile id) = false := rfl

/-- How often the download was asked for. -/
def downloads (f : LoadingFile) : Nat := f.sent.countP isDownload

/-- From `f` to `f'` as many downloads were asked for as hold-offs were started, and `ended` of them have ended. -/
structure Moves (f f' : LoadingFile) (ended : Nat) : Prop where
  held : Held f'
  balance : f'.downloads + f.timers.length = f.downloads + f'.timers.length + ended

section

variable {f : LoadingFile}

theorem Held.of_zero (h : Held f) (htimer : f.downloadHoldOffTimer = 0) : f.timers = [] := by
  rw [Held, if_pos htimer] at h
  exact h

theorem Held.of_ne_zero (h : Held f) (htimer : f.downloadHoldOffTimer ≠ 0) : f.timers = [f.downloadHoldOffTimer] := by
  rw [Held, if_neg htimer] at h
  exact h

theorem Held.mem_timers (h : Held f) {timer : Nat} :
    timer ∈ f.timers ↔ f.downloadHoldOffTimer ≠ 0 ∧ timer = f.downloadHoldOffTimer := by
  by_cases htimer : f.downloadHoldOffTimer = 0
  · simp [h.of_zero htimer, htimer]
  · simp [h.of_ne_zero htimer, htimer]

theorem Moves.trans {f' f'' : LoadingFile} {k k' : Nat} (h : Moves f f' k) (h' : Moves f' f'' k') :
    Moves f f'' (k + k') := by
  refine ⟨h'.held, ?_⟩
  have hfirst := h.balance
  have hsecond := h'.balance
  omega

/-- Nothing that concerns the downloads has changed. -/
theorem Moves.of_eq {f' : LoadingFile} (h : Held f) (htimer : f'.downloadHoldOffTimer = f.downloadHoldOffTimer)
    (htimers : f'.timers = f.timers) (hsent : f'.downloads = f.downloads) : Moves f f' 0 := by
  refine ⟨?_, ?_⟩
  · rw [Held, htimers, htimer]
    exact h
  · rw [hsent, htimers, Nat.add_zero]

theorem Moves.emitQueuedSignals {f' : LoadingFile} {k : Nat} (h : Moves f f' k) : Moves f f'.emitQueuedSignals k :=
  ⟨h.held, h.balance⟩

theorem Moves.queueSignal {f' : LoadingFile} {k : Nat} (h : Moves f f' k) (signal : TDLibFileSignal) :
    Moves f (f'.queueSignal signal) k := ⟨h.held, h.balance⟩

theorem newTimer_ne_zero (timers : List Nat) : newTimer timers ≠ 0 := Nat.succ_ne_zero _

/-- The two things `downloadFile` does. -/
theorem downloadFile_cases (f : LoadingFile) :
    (∃ tdlib, f.tdLibWrapper = some tdlib ∧ f.Loadable ∧ f.downloadHoldOffTimer = 0 ∧
      f.downloadFile = (true, { f.startHoldOff with sent := (tdlib, .downloadFile f.fields.id) :: f.sent })) ∨
    (¬ (f.Loadable ∧ f.downloadHoldOffTimer = 0) ∧ f.downloadFile = (false, f)) := by
  rw [downloadFile]
  cases htdlib : f.tdLibWrapper with
  | none =>
      refine Or.inr ⟨fun h => ?_, rfl⟩
      have hsome := h.1.1
      rw [htdlib] at hsome
      cases hsome
  | some tdlib =>
      dsimp only
      split_ifs with hload
      · obtain ⟨hid, htimer, hactive, hcompleted, hcan⟩ := hload
        refine Or.inl ⟨tdlib, rfl, ⟨?_, hid, hactive, hcompleted, hcan⟩, htimer, rfl⟩
        rw [htdlib]
        rfl
      · refine Or.inr ⟨fun h => hload ?_, rfl⟩
        obtain ⟨⟨_, hid, hactive, hcompleted, hcan⟩, htimer⟩ := h
        exact ⟨hid, htimer, hactive, hcompleted, hcan⟩

theorem moves_downloadFile (h : Held f) : Moves f f.downloadFile.2 0 := by
  rcases downloadFile_cases f with ⟨tdlib, -, -, htimer, hdownload⟩ | ⟨-, hdownload⟩
  · have hnone := h.of_zero htimer
    rw [hdownload]
    refine ⟨?_, ?_⟩
    · simp [Held, startHoldOff, newTimer_ne_zero, hnone]
    · rw [downloads, List.countP_cons_of_pos (isDownload_downloadFile _ _)]
      simp [downloads, startHoldOff, hnone]
  · rw [hdownload]
    exact Moves.of_eq h rfl rfl rfl

theorem moves_downloadIfAutoLoad (h : Held f) : Moves f f.downloadIfAutoLoad 0 := by
  rw [downloadIfAutoLoad]
  split_ifs
  · exact moves_downloadFile h
  · exact Moves.of_eq h rfl rfl rfl

theorem moves_killHoldOff (h : Held f) (htimer : f.downloadHoldOffTimer ≠ 0) : Moves f f.killHoldOff 1 := by
  have hone := h.of_ne_zero htimer
  refine ⟨?_, ?_⟩
  · simp [Held, killHoldOff, hone]
  · simp [killHoldOff, hone, downloads]

theorem moves_updateTDLibWrapper (h : Held f) (tdlib : Option Nat) : Moves f (f.updateTDLibWrapper tdlib) 0 := by
  have hset : Moves f { f with tdLibWrapper := tdlib } 0 := Moves.of_eq h rfl rfl rfl
  rw [updateTDLibWrapper]
  split_ifs
  · exact (hset.trans (moves_downloadIfAutoLoad hset.held)).queueSignal .tdLib
  · exact hset.queueSignal .tdLib
  · exact Moves.of_eq h rfl rfl rfl

theorem moves_setAutoLoad (h : Held f) (enableAutoLoad : Bool) : Moves f (f.setAutoLoad enableAutoLoad) 0 := by
  rw [setAutoLoad]
  split_ifs
  · have hset : Moves f ({ f with autoLoad := enableAutoLoad }.queueSignal .autoLoad) 0 := Moves.of_eq h rfl rfl rfl
    exact (hset.trans (moves_downloadIfAutoLoad hset.held)).emitQueuedSignals
  · exact Moves.of_eq h rfl rfl rfl

theorem moves_cancel (h : Held f) : Moves f f.cancel.2 0 := by
  rw [cancel]
  cases f.tdLibWrapper with
  | none => exact Moves.of_eq h rfl rfl rfl
  | some tdlib =>
      dsimp only
      split_ifs
      · exact Moves.of_eq h rfl rfl (by simp [downloads])
      · exact Moves.of_eq h rfl rfl rfl

theorem moves_getFile (h : Held f) : Moves f f.getFile.2 0 := by
  rw [getFile]
  cases f.tdLibWrapper with
  | none => exact Moves.of_eq h rfl rfl rfl
  | some tdlib =>
      dsimp only
      split_ifs
      · exact Moves.of_eq h rfl rfl (by simp [downloads])
      · exact Moves.of_eq h rfl rfl rfl

theorem moves_load (h : Held f) : Moves f f.load.2 f.timers.length := by
  rw [load]
  split_ifs with htimer
  · have hkill := moves_killHoldOff h htimer
    have hone : f.timers.length = 1 := congrArg List.length (h.of_ne_zero htimer)
    rw [hone]
    exact hkill.trans (moves_downloadFile hkill.held)
  · have hnone : f.timers.length = 0 := congrArg List.length (h.of_zero (not_not.mp htimer))
    rw [hnone]
    exact moves_downloadFile h

/-- The information that the file is complete ends the hold-off. -/
theorem moves_setFileInfo (h : Held f) (fileInfo : QVariantMap) : Moves f (f.setFileInfo fileInfo)
    (if (f.updateFileInfo fileInfo).fields.isDownloadingCompleted = true then f.timers.length else 0) := by
  have hupdate : Moves f (f.updateFileInfo fileInfo) 0 := Moves.of_eq h rfl rfl rfl
  have hend : ∀ {f' : LoadingFile}, Held f' → Moves f' f'.downloadIfAutoLoad.emitQueuedSignals 0 := fun h' =>
    (moves_downloadIfAutoLoad h').emitQueuedSignals
  rw [setFileInfo]
  by_cases hcompleted : (f.updateFileInfo fileInfo).fields.isDownloadingCompleted = true
  · rw [if_pos hcompleted]
    by_cases htimer : f.downloadHoldOffTimer = 0
    · have hnone : f.timers.length = 0 := congrArg List.length (h.of_zero htimer)
      rw [if_neg fun hboth => hboth.2 htimer, hnone]
      exact hupdate.trans (hend hupdate.held)
    · have hone : f.timers.length = 1 := congrArg List.length (h.of_ne_zero htimer)
      rw [if_pos ⟨hcompleted, htimer⟩, hone]
      have hkill := moves_killHoldOff hupdate.held htimer
      exact (hupdate.trans hkill).trans (hend hkill.held)
  · rw [if_neg hcompleted, if_neg fun hboth => hcompleted hboth.1]
    exact hupdate.trans (hend hupdate.held)

theorem moves_timerEvent (h : Held f) {timer : Nat} (htimer : timer ∈ f.timers) : Moves f f.timerEvent 1 := by
  have hkill := moves_killHoldOff h (h.mem_timers.mp htimer).1
  exact hkill.trans (moves_downloadIfAutoLoad hkill.held)

end

/-- How many hold-offs an event ends: by a manual load, by the information that the file is complete, by their time. -/
def ended (f : LoadingFile) : FileEvent → Nat
  | .load => f.timers.length
  | .setFileInfo fileInfo =>
      if (f.updateFileInfo fileInfo).fields.isDownloadingCompleted = true then f.timers.length else 0
  | .fileUpdated tdlib fileId fileInfo =>
      if f.tdLibWrapper = some tdlib ∧ f.fields.id = fileId ∧
        (f.updateFileInfo fileInfo).fields.isDownloadingCompleted = true then f.timers.length else 0
  | .timerEvent timer => if timer ∈ f.timers then 1 else 0
  | _ => 0

/-- **Step lemma.** -/
theorem moves_step {f : LoadingFile} (h : Held f) (e : FileEvent) : Moves f (f.step e) (f.ended e) := by
  cases e with
  | setTDLibWrapper tdlib => exact (moves_updateTDLibWrapper h tdlib).emitQueuedSignals
  | setAutoLoad enableAutoLoad => exact moves_setAutoLoad h enableAutoLoad
  | setClearWithInvalidFileInfo clear =>
      rw [step, setClearWithInvalidFileInfo]
      split_ifs <;> exact Moves.of_eq h rfl rfl rfl
  | setFileInfo fileInfo => exact moves_setFileInfo h fileInfo
  | cancel => exact moves_cancel h
  | load => exact moves_load h
  | getFile => exact moves_getFile h
  | fileUpdated tdlib fileId fileInfo =>
      rw [step, ended, handleFileUpdated]
      by_cases htdlib : f.tdLibWrapper = some tdlib
      · by_cases hid : f.fields.id = fileId
        · simp only [htdlib, hid, if_true, true_and]
          exact (moves_setFileInfo h fileInfo).emitQueuedSignals
        · simp only [htdlib, hid, if_true, if_false, false_and, and_false]
          exact Moves.of_eq h rfl rfl rfl
      · simp only [htdlib, if_false, false_and]
        exact Moves.of_eq h rfl rfl rfl
  | timerEvent timer =>
      rw [step, ended]
      split_ifs with htimer
      · exact moves_timerEvent h htimer
      · exact Moves.of_eq h rfl rfl rfl

/-! ### What waits -/

theorem waits_downloadFile (f : LoadingFile) : Waits f.downloadFile.2 := by
  intro _ hload
  rcases downloadFile_cases f with ⟨tdlib, -, -, -, hdownload⟩ | ⟨hnot, hdownload⟩
  · rw [hdownload]
    exact newTimer_ne_zero f.timers
  · rw [hdownload] at hload ⊢
    exact fun htimer => hnot ⟨hload, htimer⟩

theorem waits_downloadIfAutoLoad (f : LoadingFile) : Waits f.downloadIfAutoLoad := by
  rw [downloadIfAutoLoad]
  split_ifs with hauto
  · exact waits_downloadFile f
  · exact fun h => absurd h hauto

theorem waits_updateTDLibWrapper {f : LoadingFile} (h : Waits f) (tdlib : Option Nat) :
    Waits (f.updateTDLibWrapper tdlib) := by
  rw [updateTDLibWrapper]
  split_ifs with hother hsome
  · exact waits_downloadIfAutoLoad { f with tdLibWrapper := tdlib }
  · exact fun _ hload => absurd hload.1 hsome
  · exact h

theorem waits_sent {f : LoadingFile} (h : Waits f) (sent : List (Nat × FileRequest)) : Waits { f with sent := sent } := h

theorem waits_cancel {f : LoadingFile} (h : Waits f) : Waits f.cancel.2 := by
  rw [cancel]
  split
  · exact h
  · split_ifs
    · exact waits_sent h _
    · exact h

theorem waits_getFile {f : LoadingFile} (h : Waits f) : Waits f.getFile.2 := by
  rw [getFile]
  split
  · exact h
  · split_ifs
    · exact waits_sent h _
    · exact h

/-- **Step lemma.** -/
theorem waits_step {f : LoadingFile} (h : Waits f) (e : FileEvent) : Waits (f.step e) := by
  have hinfo : ∀ fileInfo, Waits (f.setFileInfo fileInfo) := fun fileInfo => waits_downloadIfAutoLoad _
  cases e with
  | setTDLibWrapper tdlib => exact waits_updateTDLibWrapper h tdlib
  | setAutoLoad enableAutoLoad =>
      rw [step, setAutoLoad]
      split_ifs
      · exact waits_downloadIfAutoLoad _
      · exact h
  | setClearWithInvalidFileInfo clear =>
      rw [step, setClearWithInvalidFileInfo]
      split_ifs <;> exact h
  | setFileInfo fileInfo => exact hinfo fileInfo
  | cancel => exact waits_cancel h
  | load => exact waits_downloadFile _
  | getFile => exact waits_getFile h
  | fileUpdated tdlib fileId fileInfo =>
      rw [step, handleFileUpdated]
      split_ifs
      · exact hinfo fileInfo
      · exact h
      · exact h
  | timerEvent timer =>
      rw [step]
      split_ifs
      · exact waits_downloadIfAutoLoad _
      · exact h

/-! ### Runs -/

structure Invariant (f : LoadingFile) : Prop where
  held : Held f
  waits : Waits f

/-- A new file has asked for nothing and has no timer. -/
theorem Constructed.idle {f : LoadingFile} (h : Constructed f) :
    f.autoLoad = false ∧ f.downloadHoldOffTimer = 0 ∧ f.timers = [] ∧ f.sent = [] := by
  cases h with
  | init => exact ⟨rfl, rfl, rfl, rfl⟩
  | ofWrapper tdlib => cases tdlib <;> exact ⟨rfl, rfl, rfl, rfl⟩
  | ofFileInfo tdlib fileInfo => cases tdlib <;> exact ⟨rfl, rfl, rfl, rfl⟩

theorem Constructed.invariant {f : LoadingFile} (h : Constructed f) : Invariant f := by
  obtain ⟨hauto, htimer, htimers, -⟩ := h.idle
  refine ⟨?_, fun h => ?_⟩
  · rw [Held, htimers, htimer, if_pos rfl]
  · rw [hauto] at h
    cases h

theorem invariant_step (f : LoadingFile) (e : FileEvent) (h : Invariant f) : Invariant (f.step e) :=
  ⟨(moves_step h.held e).held, waits_step h.waits e⟩

theorem invariant_run {f : LoadingFile} (h : Constructed f) (es : List FileEvent) : Invariant (run step f es) :=
  Along.invariant (fun s e hs _ => invariant_step s e hs) h.invariant (along_true f es)

/-- The expiry of the hold-off of a file that can be asked for. -/
theorem timerEvent_of_loadable {f : LoadingFile} (h : Held f) (hauto : f.autoLoad = true) (hload : f.Loadable)
    {timer : Nat} (htimer : timer ∈ f.timers) :
    ∃ tdlib, f.tdLibWrapper = some tdlib ∧ (f.step (.timerEvent timer)).timers = [newTimer []] ∧
      (f.step (.timerEvent timer)).sent = (tdlib, .downloadFile f.fields.id) :: f.sent := by
  have hone := h.of_ne_zero (h.mem_timers.mp htimer).1
  have hnone : f.killHoldOff.timers = [] := by simp [killHoldOff, hone]
  rw [step, if_pos htimer, timerEvent, downloadIfAutoLoad, if_pos (show f.killHoldOff.autoLoad = true from hauto)]
  rcases downloadFile_cases f.killHoldOff with ⟨tdlib, htdlib, -, -, hdownload⟩ | ⟨hnot, -⟩
  · rw [hdownload]
    refine ⟨tdlib, htdlib, ?_, rfl⟩
    simp only [startHoldOff, hnone]
  · exact absurd ⟨hload, rfl⟩ hnot

/-- **Automatic loading never stalls.** Whatever the owner, the wrapper and the timers do, a file has at most one timer;
while it loads by itself and can be asked for one runs, and when this one expires the file asks again and waits again. -/
theorem autoLoad_never_stalls {f₀ : LoadingFile} (h : Constructed f₀) (es : List FileEvent) :
    let f := run step f₀ es
    f.timers.length ≤ 1 ∧ (f.autoLoad = true → f.Loadable → ∃ timer tdlib, f.timers = [timer] ∧
      f.tdLibWrapper = some tdlib ∧
      (f.step (.timerEvent timer)).sent = (tdlib, .downloadFile f.fields.id) :: f.sent ∧
      (f.step (.timerEvent timer)).timers.length = 1) := by
  intro f
  have hinv : Invariant f := invariant_run h es
  constructor
  · by_cases htimer : f.downloadHoldOffTimer = 0
    · simp [hinv.held.of_zero htimer]
    · simp [hinv.held.of_ne_zero htimer]
  · intro hauto hload
    have htimer := hinv.waits hauto hload
    have hmem := hinv.held.mem_timers.mpr ⟨htimer, rfl⟩
    obtain ⟨tdlib, htdlib, htimers, hsent⟩ := timerEvent_of_loadable hinv.held hauto hload hmem
    refine ⟨_, tdlib, hinv.held.of_ne_zero htimer, htdlib, hsent, ?_⟩
    rw [htimers, List.length_singleton]

/-- A file that can be downloaded. -/
def photoFile : QVariantMap :=
  [(TYPE_, .string TYPE_FILE), (ID, .longLong 12),
    (LOCAL, .map [(TYPE_, .string TYPE_LOCAL_FILE), (CAN_BE_DOWNLOADED, .bool true)])]

/-- It is told to load by itself. -/
theorem autoLoad_never_stalls_photo :
    let f := run step (ofFileInfo (some 1) photoFile) [.setAutoLoad true]
    f.Loadable ∧ f.sent = [(1, .downloadFile 12)] ∧ ∃ timer, f.timers = [timer] := by
  intro f
  have hload : f.Loadable := by decide +kernel
  have hauto : f.autoLoad = true := by decide +kernel
  obtain ⟨timer, -, htimers, -⟩ :=
    (autoLoad_never_stalls (.ofFileInfo (some 1) photoFile) [.setAutoLoad true]).2 hauto hload
  exact ⟨hload, by decide +kernel, timer, htimers⟩

/-! ### What is asked for -/

/-- From `f` to `f'` the download was asked for, of the wrapper and with the id that the file has now. -/
structure Asked (f f' : LoadingFile) : Prop where
  loadable : f'.Loadable
  waits : f'.timers.length = 1
  sent : ∃ tdlib, f'.tdLibWrapper = some tdlib ∧ f'.sent = (tdlib, .downloadFile f'.fields.id) :: f.sent

section

variable {f g : LoadingFile}

theorem Asked.downloads (h : Asked f g) : g.downloads = f.downloads + 1 := by
  obtain ⟨tdlib, -, hsent⟩ := h.sent
  rw [LoadingFile.downloads, hsent, List.countP_cons_of_pos (isDownload_downloadFile _ _), LoadingFile.downloads]

theorem asked_downloadFile (h : Held g) (hsent : g.sent = f.sent) :
    Asked f g.downloadFile.2 ∨ g.downloadFile.2.downloads = f.downloads := by
  rcases downloadFile_cases g with ⟨tdlib, htdlib, hload, htimer, hdownload⟩ | ⟨-, hdownload⟩
  · rw [hdownload]
    refine Or.inl ⟨hload, ?_, tdlib, htdlib, ?_⟩
    · simp only [startHoldOff, h.of_zero htimer, List.length_singleton]
    · exact congrArg (List.cons _) hsent
  · rw [hdownload]
    exact Or.inr (congrArg (List.countP isDownload) hsent)

theorem asked_downloadIfAutoLoad (h : Held g) (hsent : g.sent = f.sent) :
    Asked f g.downloadIfAutoLoad ∨ g.downloadIfAutoLoad.downloads = f.downloads := by
  rw [downloadIfAutoLoad]
  split_ifs
  · exact asked_downloadFile h hsent
  · exact Or.inr (congrArg (List.countP isDownload) hsent)

theorem asked_emitQueuedSignals (h : Asked f g ∨ g.downloads = f.downloads) :
    Asked f g.emitQueuedSignals ∨ g.emitQueuedSignals.downloads = f.downloads :=
  h.imp (fun h => ⟨h.loadable, h.waits, h.sent⟩) fun h => h

theorem asked_queueSignal (h : Asked f g ∨ g.downloads = f.downloads) (signal : TDLibFileSignal) :
    Asked f (g.queueSignal signal) ∨ (g.queueSignal signal).downloads = f.downloads :=
  h.imp (fun h => ⟨h.loadable, h.waits, h.sent⟩) fun h => h

theorem asked_setTDLibWrapper (h : Held f) (tdlib : Option Nat) :
    Asked f (f.setTDLibWrapper tdlib) ∨ (f.setTDLibWrapper tdlib).downloads = f.downloads := by
  rw [setTDLibWrapper, updateTDLibWrapper]
  split_ifs
  · exact asked_emitQueuedSignals (asked_queueSignal
      (asked_downloadIfAutoLoad (f := f) (g := { f with tdLibWrapper := tdlib }) h rfl) .tdLib)
  · exact Or.inr rfl
  · exact Or.inr rfl

theorem asked_setFileInfo (h : Held f) (fileInfo : QVariantMap) :
    Asked f (f.setFileInfo fileInfo) ∨ (f.setFileInfo fileInfo).downloads = f.downloads := by
  have hupdate : Moves f (f.updateFileInfo fileInfo) 0 := Moves.of_eq h rfl rfl rfl
  rw [setFileInfo]
  split_ifs with hend
  · exact asked_emitQueuedSignals (asked_downloadIfAutoLoad (moves_killHoldOff hupdate.held hend.2).held rfl)
  · exact asked_emitQueuedSignals (asked_downloadIfAutoLoad hupdate.held rfl)

/-- **Step lemma.** -/
theorem asked_step (h : Held f) (e : FileEvent) : Asked f (f.step e) ∨ (f.step e).downloads = f.downloads := by
  cases e with
  | setTDLibWrapper tdlib => exact asked_setTDLibWrapper h tdlib
  | setAutoLoad enableAutoLoad =>
      rw [step, setAutoLoad]
      split_ifs
      · exact asked_emitQueuedSignals (asked_downloadIfAutoLoad
          (f := f) (g := { f with autoLoad := enableAutoLoad }.queueSignal .autoLoad) h rfl)
      · exact Or.inr rfl
  | setClearWithInvalidFileInfo clear =>
      rw [step, setClearWithInvalidFileInfo]
      split_ifs <;> exact Or.inr rfl
  | setFileInfo fileInfo => exact asked_setFileInfo h fileInfo
  | cancel =>
      rw [step, cancel]
      split
      · exact Or.inr rfl
      · split_ifs
        · exact Or.inr (by simp [LoadingFile.downloads])
        · exact Or.inr rfl
  | load =>
      rw [step, load]
      split_ifs with htimer
      · exact asked_downloadFile (moves_killHoldOff h htimer).held rfl
      · exact asked_downloadFile h rfl
  | getFile =>
      rw [step, getFile]
      split
      · exact Or.inr rfl
      · split_ifs
        · exact Or.inr (by simp [LoadingFile.downloads])
        · exact Or.inr rfl
  | fileUpdated tdlib fileId fileInfo =>
      rw [step, handleFileUpdated]
      split_ifs
      · exact asked_emitQueuedSignals (asked_setFileInfo h fileInfo)
      · exact Or.inr rfl
      · exact Or.inr rfl
  | timerEvent timer =>
      rw [step]
      split_ifs with htimer
      · exact asked_downloadIfAutoLoad (moves_killHoldOff h (h.mem_timers.mp htimer).1).held rfl
      · exact Or.inr rfl

end

/-- **One request a hold-off.** In every run the download was asked for as often as hold-offs have ended, and once more if
one still runs. An event that asks for it asks once, of the wrapper and with the id the file then has; the file can be asked
for, and had no hold-off before or its hold-off was ended by the event. -/
theorem downloads_held_off {f₀ : LoadingFile} (h : Constructed f₀) (es : List FileEvent) :
    let f := run step f₀ es
    f.downloads = totalAlong step ended f₀ es + f.timers.length ∧
    ∀ e, (f.step e).downloads ≠ f.downloads →
      (f.step e).Loadable ∧ (f.timers = [] ∨ f.ended e = 1) ∧
      ∃ tdlib, (f.step e).tdLibWrapper = some tdlib ∧
        (f.step e).sent = (tdlib, .downloadFile (f.step e).fields.id) :: f.sent := by
  intro f
  have hinv : Invariant f := invariant_run h es
  constructor
  · obtain ⟨-, -, htimers, hsent⟩ := h.idle
    have hbalance : f.downloads + f₀.timers.length + totalAlong step (fun _ _ => 0) f₀ es =
        f₀.downloads + f.timers.length + totalAlong step ended f₀ es :=
      Along.balance (n := fun f => f.timers.length) (fun f e hf _ => invariant_step f e hf)
        (fun f e hf _ => (moves_step hf.held e).balance) h.invariant (along_true f₀ es)
    have hnone : f₀.downloads = 0 := by rw [downloads, hsent, List.countP_nil]
    rw [hnone, htimers, List.length_nil, totalAlong_zero] at hbalance
    omega
  · intro e hask
    have hasked := (asked_step hinv.held e).resolve_right hask
    refine ⟨hasked.loadable, ?_, hasked.sent⟩
    have hbalance := (moves_step hinv.held e).balance
    have hdownloads := hasked.downloads
    have hwaits := hasked.waits
    have hended : f.ended e = f.timers.length := by omega
    by_cases htimer : f.downloadHoldOffTimer = 0
    · exact Or.inl (hinv.held.of_zero htimer)
    · refine Or.inr ?_
      rw [hended, hinv.held.of_ne_zero htimer, List.length_singleton]

/-- The hold-off expires once. -/
theorem downloads_held_off_photo :
    let f := run step (ofFileInfo (some 1) photoFile) [.setAutoLoad true, .timerEvent 1]
    f.downloads = 2 ∧ f.timers.length = 1 ∧
      totalAlong step ended (ofFileInfo (some 1) photoFile) [.setAutoLoad true, .timerEvent 1] = 1 := by
  intro f
  have htwo : f.downloads = 2 := by decide +kernel
  have hone : f.timers.length = 1 := by decide +kernel
  have hcount := (downloads_held_off (.ofFileInfo (some 1) photoFile) [.setAutoLoad true, .timerEvent 1]).1
  refine ⟨htwo, hone, ?_⟩
  have hsum : f.downloads = totalAlong step ended (ofFileInfo (some 1) photoFile) [.setAutoLoad true, .timerEvent 1] +
    f.timers.length := hcount
  omega

end LoadingFile

end YaqtLib
