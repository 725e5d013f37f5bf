import YaqtLib.FileSignals
import YaqtLib.CleanupMap

/-! A file of TDLib (`tdlib/tdlibfile.cpp`): its fields are copied one by one out of the `file` object and the
`localFile` and `remoteFile` objects in it. -/

namespace YaqtLib

open TdConst

namespace TdConst

abbrev EXPECTED_SIZE : String := "expected_size"
abbrev SIZE : String := "size"
abbrev LOCAL : String := "local"
abbrev CAN_BE_DELETED : String := "can_be_deleted"
abbrev CAN_BE_DOWNLOADED : String := "can_be_downloaded"
abbrev DOWNLOAD_OFFSET : String := "download_offset"
abbrev DOWNLOADED_PREFIX_SIZE : String := "downloaded_prefix_size"
abbrev DOWNLOADED_SIZE : String := "downloaded_size"
abbrev IS_DOWNLODING_ACTIVE : String := "is_downloading_active"
abbrev IS_DOWNLODING_COMPELETED : String := "is_downloading_completed"
abbrev PATH : String := "path"
abbrev REMOTE : String := "remote"
abbrev IS_UPLOADING_ACTIVE : String := "is_uploading_active"
abbrev IS_UPLOADING_COMPLETED : String := "is_uploading_completed"
abbrev UPLOADED_SIZE : String := "uploaded_size"
abbrev TYPE_FILE : String := "file"
abbrev TYPE_LOCAL_FILE : String := "localFile"
abbrev TYPE_REMOTE_FILE : String := "remoteFile"

end TdConst

/-- The fields a file exposes, with the values of a new file. -/
structure FileFields where
  id : Int := 0
  expectedSize : Int := 0
  size : Int := 0
  downloadOffset : Int := 0
  downloadedPrefixSize : Int := 0
  downloadedSize : Int := 0
  canBeDeleted : Bool := false
  canBeDownloaded : Bool := false
  isDownloadingActive : Bool := false
  isDownloadingCompleted : Bool := false
  path : String := ""
  uploadedSize : Int := 0
  isUploadingActive : Bool := false
  isUploadingCompleted : Bool := false
  remoteId : String := ""
  uniqueId : String := ""
  deriving DecidableEq

structure TDLibFile where
  queue : SignalQueue
  fields : FileFields
  infoMap : QVariantMap
  clearWithInvalidFileInfo : Bool

namespace TDLibFile

def new : TDLibFile := { queue := .init, fields := {}, infoMap := [], clearWithInvalidFileInfo := false }

/-- The signals of the fields that differ, and that of the whole information if one does. -/
def changes (old new : FileFields) : TDLibFileSignal → Bool
  | .tdLib | .autoLoad | .clearWithInvalidFileInfo => false
  | .fileInfo => old ≠ new
  | .id => old.id ≠ new.id
  | .expectedSize => old.expectedSize ≠ new.expectedSize
  | .size => old.size ≠ new.size
  | .path => old.path ≠ new.path
  | .downloadOffset => old.downloadOffset ≠ new.downloadOffset
  | .downloadedPrefixSize => old.downloadedPrefixSize ≠ new.downloadedPrefixSize
  | .downloadedSize => old.downloadedSize ≠ new.downloadedSize
  | .canBeDeleted => old.canBeDeleted ≠ new.canBeDeleted
  | .canBeDownloaded => old.canBeDownloaded ≠ new.canBeDownloaded
  | .downloadingActive => old.isDownloadingActive ≠ new.isDownloadingActive
  | .downloadingCompleted => old.isDownloadingCompleted ≠ new.isDownloadingCompleted
  | .remoteId => old.remoteId ≠ new.remoteId
  | .uniqueId => old.uniqueId ≠ new.uniqueId
  | .uploadedSize => old.uploadedSize ≠ new.uploadedSize
  | .uploadingActive => old.isUploadingActive ≠ new.isUploadingActive
  | .uploadingCompleted => old.isUploadingCompleted ≠ new.isUploadingCompleted

/-- One of the fields: its signal, and how it is read and written. -/
structure Field (α : Type) [DecidableEq α] where
  signal : TDLibFileSignal
  get : FileFields → α
  set : FileFields → α → FileFields
  get_set : ∀ f v, get (set f v) = v := by intros; rfl
  set_get : ∀ f, set f (get f) = f := by intros; rfl
  signal_ne : signal ≠ TDLibFileSignal.fileInfo := by decide
  /-- writing the field changes what its own signal says -/
  changes_set : ∀ f g v s, s ≠ TDLibFileSignal.fileInfo →
    changes f (set g v) s = if s = signal then decide (get f ≠ v) else changes f g s := by
      rintro f g v (_ | _) h <;> first | rfl | exact absurd rfl h

namespace Field

def id : Field Int := { signal := .id, get := fun f => f.id, set := fun f v => { f with id := v } }

def expectedSize : Field Int :=
  { signal := .expectedSize, get := fun f => f.expectedSize, set := fun f v => { f with expectedSize := v } }

def size : Field Int := { signal := .size, get := fun f => f.size, set := fun f v => { f with size := v } }

def downloadOffset : Field Int :=
  { signal := .downloadOffset, get := fun f => f.downloadOffset, set := fun f v => { f with downloadOffset := v } }

def downloadedPrefixSize : Field Int :=
  { signal := .downloadedPrefixSize, get := fun f => f.downloadedPrefixSize, set := fun f v => { f with downloadedPrefixSize := v } }

def downloadedSize : Field Int :=
  { signal := .downloadedSize, get := fun f => f.downloadedSize, set := fun f v => { f with downloadedSize := v } }

def canBeDeleted : Field Bool :=
  { signal := .canBeDeleted, get := fun f => f.canBeDeleted, set := fun f v => { f with canBeDeleted := v } }

def canBeDownloaded : Field Bool :=
  { signal := .canBeDownloaded, get := fun f => f.canBeDownloaded, set := fun f v => { f with canBeDownloaded := v } }

def downloadingActive : Field Bool :=
  { signal := .downloadingActive, get := fun f => f.isDownloadingActive, set := fun f v => { f with isDownloadingActive := v } }

def downloadingCompleted : Field Bool :=
  { signal := .downloadingCompleted, get := fun f => f.isDownloadingCompleted, set := fun f v => { f with isDownloadingCompleted := v } }

def path : Field String := { signal := .path, get := fun f => f.path, set := fun f v => { f with path := v } }

def uploadedSize : Field Int :=
  { signal := .uploadedSize, get := fun f => f.uploadedSize, set := fun f v => { f with uploadedSize := v } }

def uploadingActive : Field Bool :=
  { signal := .uploadingActive, get := fun f => f.isUploadingActive, set := fun f v => { f with isUploadingActive := v } }

def uploadingCompleted : Field Bool :=
  { signal := .uploadingCompleted, get := fun f => f.isUploadingCompleted, set := fun f v => { f with isUploadingCompleted := v } }

def remoteId : Field String :=
  { signal := .remoteId, get := fun f => f.remoteId, set := fun f v => { f with remoteId := v } }

def uniqueId : Field String :=
  { signal := .uniqueId, get := fun f => f.uniqueId, set := fun f v => { f with uniqueId := v } }

end Field

/-! ### Updating the fields -/

/-- A file in the middle of `updateFileInfo`, with its `fileChanged`. -/
structure Update where
  fields : FileFields
  queue : SignalQueue
  fileChanged : Bool

/-- One of the blocks: a field takes its new value if that is another one, and its signal is queued. -/
def updateField {α : Type} [DecidableEq α] (field : Field α) (values : FileFields) (u : Update) : Update :=
  if field.get u.fields ≠ field.get values then
    { fields := field.set u.fields (field.get values), queue := u.queue.queueSignal field.signal, fileChanged := true }
  else u

/-- The blocks of the `file` object. -/
def updateFile (values : FileFields) (u : Update) : Update :=
  let u := updateField Field.id values u
  let u := updateField Field.expectedSize values u
  updateField Field.size values u

/-- The blocks of the `localFile` object. -/
def updateLocal (values : FileFields) (u : Update) : Update :=
  let u := updateField Field.downloadOffset values u
  let u := updateField Field.downloadedPrefixSize values u
  let u := updateField Field.downloadedSize values u
  let u := updateField Field.canBeDeleted values u
  let u := updateField Field.canBeDownloaded values u
  let u := updateField Field.downloadingActive values u
  let u := updateField Field.downloadingCompleted values u
  updateField Field.path values u

/-- The blocks of the `remoteFile` object. -/
def updateRemote (values : FileFields) (u : Update) : Update :=
  let u := updateField Field.uploadedSize values u
  let u := updateField Field.uploadingActive values u
  let u := updateField Field.uploadingCompleted values u
  let u := updateField Field.remoteId values u
  updateField Field.uniqueId values u

def localOf (file : QVariantMap) : QVariantMap := (file.value LOCAL).toMap

def remoteOf (file : QVariantMap) : QVariantMap := (file.value REMOTE).toMap

/-- The values the blocks compare with. Those of the remote file are looked up in the file and in the local file. -/
def read (file : QVariantMap) : FileFields :=
  { id := (file.value ID).toInt
    expectedSize := (file.value EXPECTED_SIZE).toLongLong
    size := (file.value SIZE).toLongLong
    downloadOffset := ((localOf file).value DOWNLOAD_OFFSET).toLongLong
    downloadedPrefixSize := ((localOf file).value DOWNLOADED_PREFIX_SIZE).toLongLong
    downloadedSize := ((localOf file).value DOWNLOADED_SIZE).toLongLong
    canBeDeleted := ((localOf file).value CAN_BE_DELETED).toBool
    canBeDownloaded := ((localOf file).value CAN_BE_DOWNLOADED).toBool
    isDownloadingActive := ((localOf file).value IS_DOWNLODING_ACTIVE).toBool
    isDownloadingCompleted := ((localOf file).value IS_DOWNLODING_COMPELETED).toBool
    path := ((localOf file).value PATH).toStr
    uploadedSize := (file.value UPLOADED_SIZE).toLongLong
    isUploadingActive := (file.value IS_UPLOADING_ACTIVE).toBool
    isUploadingCompleted := (file.value IS_UPLOADING_COMPLETED).toBool
    remoteId := ((localOf file).value ID).toStr
    uniqueId := ((localOf file).value UNIQUE_ID).toStr }

def updateFileInfo (f : TDLibFile) (file : QVariantMap) : TDLibFile :=
  if (file.value TYPE_).toStr = TYPE_FILE then
    let u := updateFile (read file) { fields := f.fields, queue := f.queue, fileChanged := false }
    let u := if ((localOf file).value TYPE_).toStr = TYPE_LOCAL_FILE then updateLocal (read file) u else u
    let u := if ((remoteOf file).value TYPE_).toStr = TYPE_REMOTE_FILE then updateRemote (read file) u else u
    if u.fileChanged then
      { f with fields := u.fields, queue := u.queue.queueSignal .fileInfo, infoMap := file }
    else { f with fields := u.fields, queue := u.queue }
  else if f.clearWithInvalidFileInfo then
    -- the fields are reset by the same tests in the same order
    let u := updateFile {} { fields := f.fields, queue := f.queue, fileChanged := false }
    let u := updateRemote {} (updateLocal {} u)
    if !f.infoMap.isEmpty then
      { f with fields := u.fields, queue := u.queue.queueSignal .fileInfo, infoMap := [] }
    else { f with fields := u.fields, queue := u.queue }
  else f

/-! ### What an update is for -/

/-- The values at their documented places. -/
def documented (file : QVariantMap) : FileFields :=
  { read file with
    uploadedSize := ((remoteOf file).value UPLOADED_SIZE).toLongLong
    isUploadingActive := ((remoteOf file).value IS_UPLOADING_ACTIVE).toBool
    isUploadingCompleted := ((remoteOf file).value IS_UPLOADING_COMPLETED).toBool
    remoteId := ((remoteOf file).value ID).toStr
    uniqueId := ((remoteOf file).value UNIQUE_ID).toStr }

/-- The updated file shows the object, and announces what has changed. -/
structure Mirrors (f : TDLibFile) (file : QVariantMap) (f' : TDLibFile) : Prop where
  fields : f'.fields = documented file
  fileInfo : f'.fields ≠ f.fields → f'.infoMap = file
  queued : ∀ signal, f'.queue.isQueued signal = (f.queue.isQueued signal || changes f.fields f'.fields signal)

/-- What is read of the remote file is found where it is looked up. -/
def RemoteFound (file : QVariantMap) : Prop :=
  (file.value UPLOADED_SIZE).toLongLong = ((remoteOf file).value UPLOADED_SIZE).toLongLong ∧
  (file.value IS_UPLOADING_ACTIVE).toBool = ((remoteOf file).value IS_UPLOADING_ACTIVE).toBool ∧
  (file.value IS_UPLOADING_COMPLETED).toBool = ((remoteOf file).value IS_UPLOADING_COMPLETED).toBool ∧
  ((localOf file).value ID).toStr = ((remoteOf file).value ID).toStr ∧
  ((localOf file).value UNIQUE_ID).toStr = ((remoteOf file).value UNIQUE_ID).toStr

theorem read_eq_documented_iff (file : QVariantMap) : read file = documented file ↔ RemoteFound file := by
  rw [documented, RemoteFound]
  constructor
  · intro h
    exact ⟨congrArg FileFields.uploadedSize h, congrArg FileFields.isUploadingActive h,
      congrArg FileFields.isUploadingCompleted h, congrArg FileFields.remoteId h, congrArg FileFields.uniqueId h⟩
  · rintro ⟨huploaded, hactive, hcompleted, hid, hunique⟩
    rw [← huploaded, ← hactive, ← hcompleted, ← hid, ← hunique]
    rfl

/-! ### The blocks -/

/-- Some blocks have brought the fields from `f` to `g`, and queued the signals of those that changed. -/
structure Tracks (f : FileFields) (q : SignalQueue) (g : FileFields) (u : Update) : Prop where
  fields : u.fields = g
  fileChanged : u.fileChanged = true ↔ g ≠ f
  queued : ∀ s, s ≠ TDLibFileSignal.fileInfo → u.queue.isQueued s = (q.isQueued s || changes f g s)
  fileInfo : u.queue.isQueued .fileInfo = q.isQueued .fileInfo

theorem tracks_start (f : FileFields) (q : SignalQueue) :
    Tracks f q f { fields := f, queue := q, fileChanged := false } where
  fields := rfl
  fileChanged := iff_of_false Bool.false_ne_true fun h => h rfl
  queued s hs := by
    have hnone : changes f f s = false := by
      cases s <;> first | exact absurd rfl hs | exact decide_eq_false fun h => h rfl | rfl
    rw [hnone, Bool.or_false]
  fileInfo := rfl

/-- A block whose field has not been written before. -/
theorem Tracks.updateField {α : Type} [DecidableEq α] {f g : FileFields} {q : SignalQueue} {u : Update}
    (h : Tracks f q g u) (field : Field α) (hold : field.get g = field.get f) (values : FileFields) :
    Tracks f q (field.set g (field.get values)) (updateField field values u) := by
  rw [TDLibFile.updateField, h.fields]
  by_cases hchanged : field.get g = field.get values
  · have hsame : field.set g (field.get values) = g := hchanged ▸ field.set_get g
    rw [if_neg fun hne => hne hchanged, hsame]
    exact h
  · rw [if_pos hchanged]
    refine ⟨rfl, iff_of_true rfl fun heq => hchanged ?_, fun s hs => ?_, ?_⟩
    · rw [hold, ← heq, field.get_set]
    · dsimp only
      rw [SignalQueue.isQueued_queueSignal, h.queued s hs, field.changes_set f g _ s hs]
      by_cases hsignal : s = field.signal
      · rw [decide_eq_true hsignal, if_pos hsignal, Bool.or_true, decide_eq_true (hold ▸ hchanged), Bool.or_true]
      · rw [decide_eq_false hsignal, if_neg hsignal, Bool.or_false]
    · dsimp only
      rw [SignalQueue.isQueued_queueSignal, h.fileInfo, decide_eq_false field.signal_ne.symm, Bool.or_false]

section

variable {f g : FileFields} {q : SignalQueue} {u : Update}

theorem tracks_updateFile (f : FileFields) (q : SignalQueue) (values : FileFields) :
    Tracks f q { f with id := values.id, expectedSize := values.expectedSize, size := values.size }
      (updateFile values { fields := f, queue := q, fileChanged := false }) :=
  (((tracks_start f q).updateField .id rfl values).updateField .expectedSize rfl values).updateField .size rfl values

/-- The blocks of the local file, after those of the file. -/
theorem Tracks.updateLocal {values : FileFields}
    (h : Tracks f q { f with id := values.id, expectedSize := values.expectedSize, size := values.size } u) :
    Tracks f q { values with
        uploadedSize := f.uploadedSize, isUploadingActive := f.isUploadingActive,
        isUploadingCompleted := f.isUploadingCompleted, remoteId := f.remoteId, uniqueId := f.uniqueId }
      (updateLocal values u) := by
  have hoffset := (h.updateField .downloadOffset rfl values).updateField .downloadedPrefixSize rfl values
  have hdeleted := (hoffset.updateField .downloadedSize rfl values).updateField .canBeDeleted rfl values
  have hactive := (hdeleted.updateField .canBeDownloaded rfl values).updateField .downloadingActive rfl values
  have hpath := (hactive.updateField .downloadingCompleted rfl values).updateField .path rfl values
  dsimp only [Field.downloadOffset, Field.downloadedPrefixSize, Field.downloadedSize, Field.canBeDeleted,
    Field.canBeDownloaded, Field.downloadingActive, Field.downloadingCompleted, Field.path] at hpath
  exact hpath

/-- The blocks of the remote file, the last. -/
theorem Tracks.updateRemote {values : FileFields}
    (h : Tracks f q { values with
      uploadedSize := f.uploadedSize, isUploadingActive := f.isUploadingActive,
      isUploadingCompleted := f.isUploadingCompleted, remoteId := f.remoteId, uniqueId := f.uniqueId } u) :
    Tracks f q values (updateRemote values u) := by
  have huploading := (h.updateField .uploadedSize rfl values).updateField .uploadingActive rfl values
  have hremote := (huploading.updateField .uploadingCompleted rfl values).updateField .remoteId rfl values
  have hunique := hremote.updateField .uniqueId rfl values
  dsimp only [Field.uploadedSize, Field.uploadingActive, Field.uploadingCompleted, Field.remoteId,
    Field.uniqueId] at hunique
  exact hunique

end

/-- An update with an object of the three types leaves what the blocks read, and announces it. -/
theorem updateFileInfo_of_file {f : TDLibFile} {file : QVariantMap} (hfile : (file.value TYPE_).toStr = TYPE_FILE)
    (hlocal : ((localOf file).value TYPE_).toStr = TYPE_LOCAL_FILE)
    (hremote : ((remoteOf file).value TYPE_).toStr = TYPE_REMOTE_FILE) :
    (updateFileInfo f file).fields = read file ∧
    (read file ≠ f.fields → (updateFileInfo f file).infoMap = file) ∧
    ∀ signal, (updateFileInfo f file).queue.isQueued signal =
      (f.queue.isQueued signal || changes f.fields (read file) signal) := by
  have htracks := (tracks_updateFile f.fields f.queue (read file)).updateLocal.updateRemote
  rw [updateFileInfo, if_pos hfile]
  dsimp only
  rw [if_pos hlocal, if_pos hremote]
  generalize updateRemote (read file) (updateLocal (read file) (updateFile (read file)
    { fields := f.fields, queue := f.queue, fileChanged := false })) = u at htracks ⊢
  by_cases hchanged : u.fileChanged = true
  · have hne := htracks.fileChanged.mp hchanged
    rw [if_pos hchanged]
    refine ⟨htracks.fields, fun _ => rfl, fun signal => ?_⟩
    dsimp only
    rw [SignalQueue.isQueued_queueSignal]
    by_cases hinfo : signal = .fileInfo
    · have hchanges : changes f.fields (read file) .fileInfo = true := decide_eq_true hne.symm
      rw [hinfo, hchanges, decide_eq_true rfl, Bool.or_true, Bool.or_true]
    · rw [decide_eq_false hinfo, Bool.or_false]
      exact htracks.queued signal hinfo
  · have heq : read file = f.fields := by
      by_contra hne
      exact hchanged (htracks.fileChanged.mpr hne)
    rw [if_neg hchanged]
    refine ⟨htracks.fields, fun hne => absurd heq hne, fun signal => ?_⟩
    by_cases hinfo : signal = .fileInfo
    · have hchanges : changes f.fields (read file) .fileInfo = false := decide_eq_false fun hne => hne heq.symm
      rw [hinfo, hchanges, Bool.or_false]
      exact htracks.fileInfo
    · exact htracks.queued signal hinfo

/-- An update shows the object exactly when what is read of the remote file is found where it is looked up. -/
theorem updateFileInfo_mirrors_iff (f : TDLibFile) (file : QVariantMap)
    (hfile : (file.value TYPE_).toStr = TYPE_FILE)
    (hlocal : ((localOf file).value TYPE_).toStr = TYPE_LOCAL_FILE)
    (hremote : ((remoteOf file).value TYPE_).toStr = TYPE_REMOTE_FILE) :
    Mirrors f file (updateFileInfo f file) ↔ RemoteFound file := by
  obtain ⟨hfields, hinfo, hqueued⟩ := updateFileInfo_of_file (f := f) hfile hlocal hremote
  rw [← read_eq_documented_iff]
  constructor
  · intro hmirrors
    rw [← hfields]
    exact hmirrors.fields
  · intro heq
    refine ⟨hfields.trans heq, ?_, ?_⟩
    · rw [hfields]
      exact hinfo
    · rw [hfields]
      exact hqueued

/-- A new file is given an object that is known by its path only. -/
theorem updateFileInfo_mirrors_path :
    let file : QVariantMap :=
      [(TYPE_, .string TYPE_FILE), (ID, .longLong 12),
        (LOCAL, .map [(TYPE_, .string TYPE_LOCAL_FILE), (PATH, .string "/tmp/photo.jpg")]),
        (REMOTE, .map [(TYPE_, .string TYPE_REMOTE_FILE)])]
    Mirrors new file (updateFileInfo new file) :=
  (updateFileInfo_mirrors_iff new
    [(TYPE_, .string TYPE_FILE), (ID, .longLong 12),
      (LOCAL, .map [(TYPE_, .string TYPE_LOCAL_FILE), (PATH, .string "/tmp/photo.jpg")]),
      (REMOTE, .map [(TYPE_, .string TYPE_REMOTE_FILE)])] rfl rfl rfl).mpr ⟨rfl, rfl, rfl, rfl, rfl⟩

/-- An uploaded file, whose ids are not found. -/
theorem not_updateFileInfo_mirrors :
    let file : QVariantMap :=
      [(TYPE_, .string TYPE_FILE), (ID, .longLong 12),
        (LOCAL, .map [(TYPE_, .string TYPE_LOCAL_FILE)]),
        (REMOTE, .map [(TYPE_, .string TYPE_REMOTE_FILE), (ID, .string "AQADAgATXYBrly4"),
          (IS_UPLOADING_COMPLETED, .bool true), (UNIQUE_ID, .string "AQADXYBrly4AAzh"),
          (UPLOADED_SIZE, .longLong 5)])]
    ((file.value TYPE_).toStr = TYPE_FILE ∧ ((localOf file).value TYPE_).toStr = TYPE_LOCAL_FILE ∧
      ((remoteOf file).value TYPE_).toStr = TYPE_REMOTE_FILE) ∧ ¬ Mirrors new file (updateFileInfo new file) := by
  refine ⟨⟨rfl, rfl, rfl⟩, fun hmirrors => ?_⟩
  have hsize : (0 : Int) = 5 := congrArg FileFields.uploadedSize hmirrors.fields
  cases hsize

end TDLibFile

end YaqtLib
