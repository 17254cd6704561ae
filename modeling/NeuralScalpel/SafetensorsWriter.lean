/-
Writing safetensors layer by layer.

The bridge keeps the layers it is given in a current shard and saves the shard
when it has grown over the limit.  Closing saves what is left: in a single file
if no shard was saved before, in one more shard otherwise.  Loading looks for
one file only.

* `fill` — how a sequence of writes falls into shards;
* `writeLayers_spec` — the writer saves exactly these shards, in this order;
* `loadWeights_saveSingle` — what is saved as a single file is read back;
* `loadsBack_iff` — writes that never exceed the limit are read back; others are
  not, unless the file that is looked up holds the right layers by accident.

Tensors are known by their size; `accepts` says which dictionaries the library
saves.
-/
import NeuralScalpel.Decimals
import NeuralScalpel.Payload

/-! ### Files and folders -/

/-- What is on disk: folders, and files that hold tensors or something else. -/
structure Disk (τ : Type) where
  isDir : PurePosixPath → Bool
  files : PurePosixPath → Option (Except String (Dict String τ))

namespace PurePosixPath

/-- The path of an entry of a folder. -/
def child (dir : PurePosixPath) (name : String) : PurePosixPath := ⟨dir.root, dir.parts ++ [name]⟩

def parent (p : PurePosixPath) : PurePosixPath := ⟨p.root, p.parts.dropLast⟩

/-- `q` is the path itself or a folder above it. -/
def leadsTo (q p : PurePosixPath) : Bool := q.root == p.root && q.parts.isPrefixOf p.parts

@[simp] theorem parent_child (dir : PurePosixPath) (name : String) :
    (dir.child name).parent = dir := by
  rw [child, parent, List.dropLast_concat]

theorem child_inj {dir dir' : PurePosixPath} {name name' : String} :
    dir.child name = dir'.child name' ↔ dir = dir' ∧ name = name' := by
  constructor
  · intro h
    have hdir := congrArg parent h
    rw [parent_child, parent_child] at hdir
    obtain ⟨-, hname⟩ := List.append_inj' (congrArg parts h) rfl
    exact ⟨hdir, List.singleton_injective hname⟩
  · rintro ⟨rfl, rfl⟩
    rfl

end PurePosixPath

namespace Disk

variable {τ : Type}

def pathExists (disk : Disk τ) (p : PurePosixPath) : Bool := disk.isDir p || (disk.files p).isSome

/-- `os.path.isdir(path)`. -/
def isdir (disk : Disk τ) (path : String) : Bool :=
  path ≠ "" && disk.isDir (PurePosixPath.ofString path)

def put (disk : Disk τ) (p : PurePosixPath) (d : Dict String τ) : Disk τ :=
  { disk with files := fun q => if q = p then some (.ok d) else disk.files q }

/-- `os.makedirs(path, exist_ok=True)`: no part of the path may be a file. -/
def makedirs (disk : Disk τ) (path : String) : Except PyError (Disk τ) :=
  let target := PurePosixPath.ofString path
  if path = "" then .error (.fileNotFoundError "No such file or directory: ''")
  else if (target.parts.inits.any fun parts => (disk.files ⟨target.root, parts⟩).isSome) then
    .error (.external "FileExistsError")
  else
    .ok { disk with isDir := fun q => disk.isDir q || q.leadsTo target }

end Disk

namespace SafetensorsBridge

section

variable {τ : Type}

/-- The path ends in `.safetensors`. -/
def namesFile (path : String) : Bool := ".safetensors".toList.isSuffixOf path.toList

/-! ### Loading -/

/-- The one file that is loaded for a path. -/
def lookupFile (disk : Disk τ) (path : String) : PurePosixPath :=
  let dir := PurePosixPath.ofString path
  if disk.isdir path then
    if disk.pathExists (dir.child "adapter_model.safetensors") then
      dir.child "adapter_model.safetensors"
    else dir.child "model.safetensors"
  else dir

def loadFile (disk : Disk τ) (p : PurePosixPath) : Except PyError (Dict String τ) :=
  match disk.files p with
  | some (.ok d) => .ok d
  | some (.error e) => .error (.external e)
  | none => .error (.external "IsADirectoryError")

def loadWeights (disk : Disk τ) (path : String) : Except PyError (Dict String τ) :=
  -- the empty path names no file, not the working directory
  if path = "" || !disk.pathExists (lookupFile disk path) then
    .error (.fileNotFoundError ("Safetensors file not found at: " ++ (lookupFile disk path).str))
  else loadFile disk (lookupFile disk path)

/-! ### Writing -/

/-- `max_shard_size` of a new bridge. -/
def initMaxShardSize : ℕ := 2 * 1024 * 1024 * 1024

/-- The bridge between `open_writer` and `close_writer`, and the disk. -/
structure Writer (τ : Type) where
  writerPath : Option String
  currentShard : Dict String τ
  shardCount : ℕ
  disk : Disk τ

variable (nbytes : τ → ℕ) (maxShardSize : ℕ) (accepts : Dict String τ → Bool)

def saveFile (disk : Disk τ) (p : PurePosixPath) (d : Dict String τ) :
    Except PyError (Disk τ) :=
  if !disk.isDir p.parent || disk.isDir p then .error (.external "SafetensorError: I/O error")
  else if !accepts d then .error (.runtimeError "Some tensors share memory")
  else .ok (disk.put p d)

def shardName (shardCount : ℕ) : String := "shard_" ++ Nat.repr shardCount ++ ".safetensors"

/-- The folder of the shards: the path, or the folder of the file it names. -/
def shardDir (path : String) : PurePosixPath :=
  if namesFile path then (PurePosixPath.ofString path).parent else PurePosixPath.ofString path

def flushShard (path : String) (w : Writer τ) : Except PyError (Writer τ) :=
  if w.currentShard.isEmpty then .ok w
  else do
    let disk ← saveFile accepts w.disk ((shardDir path).child (shardName w.shardCount))
      w.currentShard
    pure { w with disk := disk, currentShard := .empty, shardCount := w.shardCount + 1 }

/-- `open_writer`. -/
def openWriter (disk : Disk τ) (path : String) : Writer τ := ⟨some path, .empty, 0, disk⟩

/-- The size of a shard in bytes. -/
def currentSize (shard : Dict String τ) : ℕ :=
  shard.entries.foldl (fun size e => size + nbytes e.2) 0

def writeLayer (w : Writer τ) (name : String) (tensor : τ) : Except PyError (Writer τ) :=
  match w.writerPath with
  | none => .error (.runtimeError "Writer not opened.")
  | some path =>
    let w := { w with currentShard := w.currentShard.set name tensor }
    -- the layer that exceeds the limit is saved with the shard
    if currentSize nbytes w.currentShard > maxShardSize then flushShard accepts path w else .ok w

/-- The single file of a writer that has saved no shard. -/
def saveSingle (path : String) (w : Writer τ) : Except PyError (Disk τ) :=
  let dir := PurePosixPath.ofString path
  if w.disk.isdir path then
    saveFile accepts w.disk (dir.child "adapter_model.safetensors") w.currentShard
  else if namesFile path then saveFile accepts w.disk dir w.currentShard
  else do
    -- any other path becomes a folder
    let disk ← w.disk.makedirs path
    saveFile accepts disk (dir.child "adapter_model.safetensors") w.currentShard

/-- What `close_writer` saves: the single file, or the last of several shards. -/
def saveRest (path : String) (w : Writer τ) : Except PyError (Writer τ) :=
  -- once a shard is saved, the single file is never written
  if w.shardCount = 0 ∧ w.currentShard.isEmpty = false then do
    let disk ← saveSingle accepts path w
    pure { w with disk := disk }
  else flushShard accepts path w

def closeWriter (w : Writer τ) : Except PyError (Writer τ) :=
  match w.writerPath with
  | none => .ok { w with currentShard := .empty }
  | some path => do
    let w ← saveRest accepts path w
    pure { w with writerPath := none, currentShard := .empty }

def writeLayers (w : Writer τ) : List (String × τ) → Except PyError (Writer τ)
  | [] => .ok w
  | e :: writes => do
    let w ← writeLayer nbytes maxShardSize accepts w e.1 e.2
    writeLayers w writes

/-- Everything from `open_writer` to `close_writer`. -/
def writeAll (disk : Disk τ) (path : String) (writes : List (String × τ)) :
    Except PyError (Disk τ) := do
  let w ← writeLayers nbytes maxShardSize accepts (openWriter disk path) writes
  let w ← closeWriter accepts w
  pure w.disk

end

/-! ### How writes fall into shards -/

section

variable {τ : Type} (nbytes : τ → ℕ) (maxShardSize : ℕ)

/-- The shards that fill up, and the layers left over. -/
def fill (current : Dict String τ) :
    List (String × τ) → List (Dict String τ) × Dict String τ
  | [] => ([], current)
  | e :: writes =>
    let current := current.set e.1 e.2
    if currentSize nbytes current > maxShardSize then
      (current :: (fill .empty writes).1, (fill .empty writes).2)
    else fill current writes

/-- All shards of a sequence of writes that fills at least one. -/
def shards (writes : List (String × τ)) : List (Dict String τ) :=
  let filled := fill nbytes maxShardSize .empty writes
  if filled.2.isEmpty then filled.1 else filled.1 ++ [filled.2]

/-- No running total exceeds the limit. -/
def Fits (writes : List (String × τ)) : Prop :=
  ∀ before after, writes = before ++ after →
    currentSize nbytes (Dict.ofWrites before) ≤ maxShardSize

variable {nbytes maxShardSize}

/-- Nothing fills up exactly when no running total exceeds the limit; what is
left over is then everything. -/
theorem fill_fst_eq_nil_iff {writes : List (String × τ)} : ∀ {current : Dict String τ},
    (fill nbytes maxShardSize current writes).1 = [] ↔
      ∀ before after, writes = before ++ after → before ≠ [] →
        currentSize nbytes (before.foldl (fun d e => d.set e.1 e.2) current) ≤ maxShardSize := by
  -- on the writes, for every shard they may start from
  induction writes with
  | nil =>
    intro current
    refine iff_of_true rfl fun before after h hne => ?_
    exact absurd (List.append_eq_nil_iff.mp h.symm).1 hne
  | cons e writes ih =>
    intro current
    rw [fill]
    by_cases hsize : currentSize nbytes (current.set e.1 e.2) > maxShardSize
    · simp only [if_pos hsize]
      refine iff_of_false (List.cons_ne_nil _ _) fun h => ?_
      exact absurd (h [e] writes rfl (List.cons_ne_nil _ _)) (Nat.not_le_of_gt hsize)
    · simp only [if_neg hsize]
      rw [ih]
      constructor
      · intro h before after hsplit hne
        cases before with
        | nil => exact absurd rfl hne
        | cons e' before =>
          obtain ⟨rfl, hrest⟩ := List.cons.inj hsplit
          -- the first write has just been checked, the others are the induction
          by_cases hnil : before = []
          · subst hnil
            exact Nat.le_of_not_gt hsize
          · exact h before after hrest hnil
      · intro h before after hsplit _
        exact h (e :: before) after (by rw [hsplit, List.cons_append]) (List.cons_ne_nil _ _)

theorem fits_iff {writes : List (String × τ)} :
    Fits nbytes maxShardSize writes ↔ (fill nbytes maxShardSize .empty writes).1 = [] := by
  rw [fill_fst_eq_nil_iff]
  constructor
  · intro h before after hsplit _
    exact h before after hsplit
  · intro h before after hsplit
    by_cases hnil : before = []
    · subst hnil
      exact Nat.zero_le _
    · exact h before after hsplit hnil

theorem fill_snd_of_fits {writes : List (String × τ)} : ∀ {current : Dict String τ},
    (fill nbytes maxShardSize current writes).1 = [] →
      (fill nbytes maxShardSize current writes).2 =
        writes.foldl (fun d e => d.set e.1 e.2) current := by
  induction writes with
  | nil => exact fun _ => rfl
  | cons e writes ih =>
    intro current h
    rw [fill] at h ⊢
    by_cases hsize : currentSize nbytes (current.set e.1 e.2) > maxShardSize
    · simp only [if_pos hsize] at h
      exact absurd h (List.cons_ne_nil _ _)
    · simp only [if_neg hsize] at h ⊢
      exact ih h

end

/-! ### The shards on disk -/

section

variable {τ : Type}

/-- The disk after saving shards from number `k` on. -/
def storeShards (path : String) : ℕ → List (Dict String τ) → Disk τ → Disk τ
  | _, [], disk => disk
  | k, shard :: rest, disk =>
    storeShards path (k + 1) rest (disk.put ((shardDir path).child (shardName k)) shard)

theorem shardName_injective : Function.Injective shardName := by
  intro k k' h
  have hlist := congrArg String.toList h
  simp only [shardName, String.toList_append, Nat.toList_repr] at hlist
  exact toDigits_ten_injective (List.append_cancel_left (List.append_cancel_right hlist))

@[simp] theorem isDir_storeShards {path : String} {rest : List (Dict String τ)} :
    ∀ {k : ℕ} {disk : Disk τ}, (storeShards path k rest disk).isDir = disk.isDir := by
  induction rest with
  | nil => exact rfl
  | cons shard rest ih =>
    intro k disk
    rw [storeShards, ih]
    rfl

theorem storeShards_append {path : String} {rest rest' : List (Dict String τ)} :
    ∀ {k : ℕ} {disk : Disk τ}, storeShards path k (rest ++ rest') disk =
      storeShards path (k + rest.length) rest' (storeShards path k rest disk) := by
  induction rest with
  | nil => exact rfl
  | cons shard rest ih =>
    intro k disk
    rw [List.cons_append, storeShards, ih, storeShards, List.length_cons,
      Nat.add_right_comm, Nat.add_assoc]

/-- A file that is none of the shards is left alone. -/
theorem files_storeShards_of_ne {path : String} {rest : List (Dict String τ)} {p : PurePosixPath} :
    ∀ {k : ℕ} {disk : Disk τ},
      (∀ i, i < rest.length → p ≠ (shardDir path).child (shardName (k + i))) →
      (storeShards path k rest disk).files p = disk.files p := by
  induction rest with
  | nil => exact fun _ => rfl
  | cons shard rest ih =>
    intro k disk h
    rw [storeShards, ih]
    -- the first shard is saved before all others
    · exact if_neg (h 0 (Nat.succ_pos _))
    · intro i hi
      have := h (i + 1) (Nat.succ_lt_succ hi)
      rwa [show k + 1 + i = k + (i + 1) by omega]

/-- Each shard is in its file. -/
theorem files_storeShards (path : String) {rest : List (Dict String τ)} :
    ∀ (k : ℕ) {i : ℕ} (disk : Disk τ) {shard : Dict String τ}, rest[i]? = some shard →
      (storeShards path k rest disk).files ((shardDir path).child (shardName (k + i))) =
        some (.ok shard) := by
  induction rest with
  | nil =>
    intro k i disk shard h
    cases h
  | cons first rest ih =>
    intro k i disk shard h
    rw [storeShards]
    cases i with
    | zero =>
      -- the later shards have other numbers
      rw [files_storeShards_of_ne]
      · cases h
        exact if_pos rfl
      · intro i _ heq
        have hname := shardName_injective (PurePosixPath.child_inj.mp heq).2
        omega
    | succ i =>
      have := ih (k + 1) (disk.put ((shardDir path).child (shardName k)) first) h
      rwa [show k + 1 + i = k + (i + 1) by omega] at this

end

/-! ### What the writer saves -/

section

variable {τ : Type} {nbytes : τ → ℕ} {maxShardSize : ℕ} {accepts : Dict String τ → Bool}

theorem saveFile_eq_ok {disk disk' : Disk τ} {p : PurePosixPath} {d : Dict String τ}
    (h : saveFile accepts disk p d = .ok disk') :
    disk.isDir p.parent = true ∧ disk.isDir p = false ∧ disk' = disk.put p d := by
  unfold saveFile at h
  split_ifs at h with hdir haccepts
  cases h
  rw [Bool.or_eq_true, not_or, Bool.not_eq_true', Bool.not_eq_false] at hdir
  exact ⟨hdir.1, by simpa using hdir.2, rfl⟩

theorem flushShard_spec {path : String} {w w' : Writer τ}
    (h : flushShard accepts path w = .ok w') (hne : w.currentShard.isEmpty = false) :
    w.disk.isDir (shardDir path) = true ∧
      w' = ⟨w.writerPath, .empty, w.shardCount + 1,
        w.disk.put ((shardDir path).child (shardName w.shardCount)) w.currentShard⟩ := by
  unfold flushShard at h
  rw [hne, if_neg Bool.false_ne_true] at h
  obtain ⟨disk, hsave, h⟩ := Effect.bind_eq_ok.mp h
  obtain ⟨hdir, -, rfl⟩ := saveFile_eq_ok hsave
  rw [PurePosixPath.parent_child] at hdir
  cases h
  exact ⟨hdir, rfl⟩

theorem isEmpty_set (d : Dict String τ) (name : String) (tensor : τ) :
    (d.set name tensor).isEmpty = false := by
  rw [← Bool.not_eq_true, Dict.isEmpty_iff]
  intro h
  have hget := Dict.get?_set_self d name tensor
  rw [h] at hget
  cases hget

theorem writeLayer_spec {path : String} {current : Dict String τ} {k : ℕ} {disk : Disk τ}
    {name : String} {tensor : τ} {w' : Writer τ}
    (h : writeLayer nbytes maxShardSize accepts ⟨some path, current, k, disk⟩ name tensor =
      .ok w') :
    if currentSize nbytes (current.set name tensor) > maxShardSize then
      disk.isDir (shardDir path) = true ∧
        w' = ⟨some path, .empty, k + 1,
          disk.put ((shardDir path).child (shardName k)) (current.set name tensor)⟩
    else w' = ⟨some path, current.set name tensor, k, disk⟩ := by
  simp only [writeLayer] at h
  split_ifs at h ⊢ with hsize
  · exact flushShard_spec h (isEmpty_set current name tensor)
  · exact (Except.ok.inj h).symm

/-- The writer saves the shards the writes fall into, and keeps the rest. -/
theorem writeLayers_spec {path : String} {writes : List (String × τ)} :
    ∀ {current : Dict String τ} {k : ℕ} {disk : Disk τ} {w' : Writer τ},
      writeLayers nbytes maxShardSize accepts ⟨some path, current, k, disk⟩ writes = .ok w' →
      w' = ⟨some path, (fill nbytes maxShardSize current writes).2,
        k + (fill nbytes maxShardSize current writes).1.length,
        storeShards path k (fill nbytes maxShardSize current writes).1 disk⟩ ∧
      ((fill nbytes maxShardSize current writes).1 ≠ [] →
        disk.isDir (shardDir path) = true) := by
  induction writes with
  | nil =>
    intro current k disk w' h
    cases h
    exact ⟨rfl, fun h => absurd rfl h⟩
  | cons e writes ih =>
    intro current k disk w' h
    obtain ⟨w₁, hwrite, hrest⟩ := Effect.bind_eq_ok.mp h
    have hspec := writeLayer_spec hwrite
    rw [fill]
    by_cases hsize : currentSize nbytes (current.set e.1 e.2) > maxShardSize
    · -- the shard is full and saved
      simp only [if_pos hsize] at hspec ⊢
      obtain ⟨hdir, rfl⟩ := hspec
      obtain ⟨hw', -⟩ := ih hrest
      refine ⟨?_, fun _ => hdir⟩
      rw [hw', List.length_cons, storeShards, Nat.add_right_comm, Nat.add_assoc]
    · simp only [if_neg hsize] at hspec ⊢
      subst hspec
      -- the layer stays in memory
      exact ih hrest

theorem isEmpty_ofWrites {writes : List (String × τ)} (hne : writes ≠ []) :
    (Dict.ofWrites writes).isEmpty = false := by
  obtain ⟨before, e, rfl⟩ := (List.eq_nil_or_concat writes).resolve_left hne
  rw [List.concat_eq_append, Dict.ofWrites_append_singleton]
  exact isEmpty_set _ _ _

/-- Without a full shard everything is saved in one file. -/
theorem writeAll_of_fits {disk disk' : Disk τ} {path : String} {writes : List (String × τ)}
    (hne : writes ≠ []) (hfits : Fits nbytes maxShardSize writes)
    (h : writeAll nbytes maxShardSize accepts disk path writes = .ok disk') :
    saveSingle accepts path ⟨some path, Dict.ofWrites writes, 0, disk⟩ = .ok disk' := by
  obtain ⟨w, hlayers, h⟩ := Effect.bind_eq_ok.mp h
  obtain ⟨w', hclose, h⟩ := Effect.bind_eq_ok.mp h
  cases h
  have hnil := fits_iff.mp hfits
  have hrest := fill_snd_of_fits hnil
  obtain ⟨hw, -⟩ := writeLayers_spec hlayers
  rw [hnil, hrest] at hw
  subst hw
  obtain ⟨w₁, hsave, hclose⟩ := Effect.bind_eq_ok.mp hclose
  cases hclose
  have hlast := isEmpty_ofWrites hne
  rw [saveRest, if_pos ⟨rfl, hlast⟩] at hsave
  obtain ⟨disk₁, hsingle, hsave⟩ := Effect.bind_eq_ok.mp hsave
  cases hsave
  exact hsingle

/-- After a full shard only shards are saved. -/
theorem writeAll_of_not_fits {disk disk' : Disk τ} {path : String}
    {writes : List (String × τ)} (hfits : ¬ Fits nbytes maxShardSize writes)
    (h : writeAll nbytes maxShardSize accepts disk path writes = .ok disk') :
    disk.isDir (shardDir path) = true ∧
      disk' = storeShards path 0 (shards nbytes maxShardSize writes) disk := by
  obtain ⟨w, hlayers, h⟩ := Effect.bind_eq_ok.mp h
  obtain ⟨w', hclose, h⟩ := Effect.bind_eq_ok.mp h
  cases h
  obtain ⟨hw, hdir⟩ := writeLayers_spec hlayers
  have hne : (fill nbytes maxShardSize .empty writes).1 ≠ [] := fun h => hfits (fits_iff.mpr h)
  subst hw
  obtain ⟨w₁, hsave, hclose⟩ := Effect.bind_eq_ok.mp hclose
  cases hclose
  have hcount : 0 + (fill nbytes maxShardSize .empty writes).1.length ≠ 0 := by
    have := List.length_pos_of_ne_nil hne
    omega
  rw [saveRest, if_neg fun h => hcount h.1] at hsave
  refine ⟨hdir hne, ?_⟩
  rw [shards]
  by_cases hlast : (fill nbytes maxShardSize .empty writes).2.isEmpty = true
  · rw [flushShard, if_pos hlast] at hsave
    cases hsave
    rw [if_pos hlast]
  · obtain ⟨-, rfl⟩ := flushShard_spec hsave (Bool.not_eq_true _ ▸ hlast)
    rw [if_neg hlast, storeShards_append]
    rfl

end

/-! ### Reading back -/

section

variable {τ : Type}

/-- Under each name is the tensor written last. -/
def Holds (writes : List (String × τ)) (d : Dict String τ) : Prop :=
  ∀ name, d.get? name = (Dict.ofWrites writes).get? name

def LoadsBack (disk : Disk τ) (path : String) (writes : List (String × τ)) : Prop :=
  ∃ d, loadWeights disk path = .ok d ∧ Holds writes d

/-- The file that is looked up is a shard with all the layers, or no shard and
held them before. -/
def FoundByChance (nbytes : τ → ℕ) (maxShardSize : ℕ) (disk : Disk τ) (path : String)
    (writes : List (String × τ)) : Prop :=
  path ≠ "" ∧
    ((∃ k shard, (shards nbytes maxShardSize writes)[k]? = some shard ∧
        lookupFile disk path = (shardDir path).child (shardName k) ∧ Holds writes shard) ∨
      ((∀ k, k < (shards nbytes maxShardSize writes).length →
          lookupFile disk path ≠ (shardDir path).child (shardName k)) ∧
        ∃ d, disk.files (lookupFile disk path) = some (.ok d) ∧ Holds writes d))

variable {nbytes : τ → ℕ} {maxShardSize : ℕ} {accepts : Dict String τ → Bool}

/-- Loading returns what is in the file that is looked up. -/
theorem loadWeights_eq_ok {disk : Disk τ} {path : String} {d : Dict String τ} :
    loadWeights disk path = .ok d ↔
      path ≠ "" ∧ disk.files (lookupFile disk path) = some (.ok d) := by
  unfold loadWeights loadFile Disk.pathExists
  by_cases hpath : path = ""
  · refine iff_of_false ?_ fun h => h.1 hpath
    rw [if_pos (Bool.or_eq_true_iff.mpr (.inl (decide_eq_true hpath)))]
    rintro ⟨⟩
  · rcases hfile : disk.files (lookupFile disk path) with _ | content
    · cases disk.isDir (lookupFile disk path) <;> simp [hpath]
    · cases content <;> simp [hpath]

/-- A file saved as the single one of its folder is looked up there. -/
theorem lookupFile_put_adapter {disk : Disk τ} {path : String} {d : Dict String τ}
    (hdir : disk.isdir path = true) :
    lookupFile (disk.put ((PurePosixPath.ofString path).child "adapter_model.safetensors") d)
      path = (PurePosixPath.ofString path).child "adapter_model.safetensors" := by
  have hdir' : (disk.put ((PurePosixPath.ofString path).child "adapter_model.safetensors")
      d).isdir path = true := hdir
  have hexists : (disk.put ((PurePosixPath.ofString path).child "adapter_model.safetensors")
      d).pathExists ((PurePosixPath.ofString path).child "adapter_model.safetensors") = true := by
    simp [Disk.pathExists, Disk.put]
  rw [lookupFile, if_pos hdir', if_pos hexists]

theorem isdir_iff {disk : Disk τ} {path : String} :
    disk.isdir path = true ↔ path ≠ "" ∧ disk.isDir (PurePosixPath.ofString path) = true := by
  rw [Disk.isdir, Bool.and_eq_true, decide_eq_true_iff]

theorem namesFile_ne_empty {path : String} (h : namesFile path = true) : path ≠ "" := by
  rintro rfl
  exact absurd h (by decide)

/-- Making a folder makes it a folder and moves no file. -/
theorem makedirs_eq_ok {disk disk' : Disk τ} {path : String}
    (h : disk.makedirs path = .ok disk') : disk'.isdir path = true := by
  simp only [Disk.makedirs] at h
  split_ifs at h with hempty hfile
  cases h
  refine isdir_iff.mpr ⟨hempty, ?_⟩
  rw [Bool.or_eq_true]
  right
  simp [PurePosixPath.leadsTo]

/-- What is saved as a single file is read back. -/
theorem loadWeights_saveSingle {disk' : Disk τ} {path : String} {w : Writer τ}
    (h : saveSingle accepts path w = .ok disk') :
    loadWeights disk' path = .ok w.currentShard := by
  rw [loadWeights_eq_ok]
  unfold saveSingle at h
  by_cases hdir : w.disk.isdir path = true
  · rw [if_pos hdir] at h
    obtain ⟨-, -, rfl⟩ := saveFile_eq_ok h
    rw [lookupFile_put_adapter hdir]
    exact ⟨(isdir_iff.mp hdir).1, if_pos rfl⟩
  · rw [if_neg hdir] at h
    by_cases hfile : namesFile path = true
    · rw [if_pos hfile] at h
      obtain ⟨-, -, rfl⟩ := saveFile_eq_ok h
      -- a file is looked up under its own path
      have hdir' : ¬ (w.disk.put (PurePosixPath.ofString path) w.currentShard).isdir path = true :=
        hdir
      rw [lookupFile, if_neg hdir']
      exact ⟨namesFile_ne_empty hfile, if_pos rfl⟩
    · rw [if_neg hfile] at h
      obtain ⟨disk₁, hmake, hsave⟩ := Effect.bind_eq_ok.mp h
      obtain ⟨-, -, rfl⟩ := saveFile_eq_ok hsave
      have hdir₁ := makedirs_eq_ok hmake
      rw [lookupFile_put_adapter hdir₁]
      exact ⟨(isdir_iff.mp hdir₁).1, if_pos rfl⟩

theorem shardName_ne_adapter (k : ℕ) : shardName k ≠ "adapter_model.safetensors" := by
  intro h
  have := congrArg (fun s => s.toList.head?) h
  simp [shardName] at this

/-- Saving shards does not change which file is looked up. -/
theorem lookupFile_storeShards {disk : Disk τ} {path : String} {saved : List (Dict String τ)} :
    lookupFile (storeShards path 0 saved disk) path = lookupFile disk path := by
  have hfiles : (storeShards path 0 saved disk).files
      ((PurePosixPath.ofString path).child "adapter_model.safetensors") =
        disk.files ((PurePosixPath.ofString path).child "adapter_model.safetensors") :=
    files_storeShards_of_ne fun i _ h =>
      shardName_ne_adapter _ (PurePosixPath.child_inj.mp h).2.symm
  simp only [lookupFile, Disk.isdir, Disk.pathExists, isDir_storeShards, hfiles]
  rfl

/-- What is in a file after shards were saved. -/
theorem files_storeShards_iff {disk : Disk τ} {path : String} {saved : List (Dict String τ)}
    {p : PurePosixPath} {d : Dict String τ} :
    (storeShards path 0 saved disk).files p = some (.ok d) ↔
      (∃ k : ℕ, saved[k]? = some d ∧ p = (shardDir path).child (shardName k)) ∨
        ((∀ k, k < saved.length → p ≠ (shardDir path).child (shardName k)) ∧
          disk.files p = some (.ok d)) := by
  by_cases h : ∃ k, k < saved.length ∧ p = (shardDir path).child (shardName k)
  -- a shard is saved under this path, and only one
  · obtain ⟨k, hk, rfl⟩ := h
    have hshard := List.getElem?_eq_getElem hk
    have hfile := files_storeShards path 0 disk hshard
    rw [Nat.zero_add] at hfile
    rw [hfile]
    constructor
    · intro heq
      cases heq
      exact Or.inl ⟨k, hshard, rfl⟩
    · rintro (⟨k', hk', heq⟩ | ⟨hne, -⟩)
      · rw [← shardName_injective (PurePosixPath.child_inj.mp heq).2, hshard] at hk'
        rw [Option.some.inj hk']
      · exact absurd rfl (hne k hk)
  · have hne : ∀ k, k < saved.length → p ≠ (shardDir path).child (shardName k) :=
      fun k hk heq => h ⟨k, hk, heq⟩
    rw [files_storeShards_of_ne fun i hi => by rw [Nat.zero_add]; exact hne i hi]
    constructor
    · exact fun hfile => Or.inr ⟨hne, hfile⟩
    · rintro (⟨k, hk, heq⟩ | ⟨-, hfile⟩)
      · exact absurd heq (hne k (List.getElem?_eq_some_iff.mp hk).1)
      · exact hfile

/-- The writes are read back exactly if no running total exceeds the limit, or
the file that is looked up happens to hold the layers. -/
theorem loadsBack_iff {disk disk' : Disk τ} {path : String} {writes : List (String × τ)}
    (hne : writes ≠ [])
    (h : writeAll nbytes maxShardSize accepts disk path writes = .ok disk') :
    LoadsBack disk' path writes ↔
      Fits nbytes maxShardSize writes ∨ FoundByChance nbytes maxShardSize disk path writes := by
  by_cases hfits : Fits nbytes maxShardSize writes
  · refine iff_of_true ?_ (Or.inl hfits)
    have hsave := writeAll_of_fits hne hfits h
    exact ⟨_, loadWeights_saveSingle hsave, fun _ => rfl⟩
  · obtain ⟨-, rfl⟩ := writeAll_of_not_fits hfits h
    rw [or_iff_right hfits]
    constructor
    · rintro ⟨d, hload, hholds⟩
      obtain ⟨hpath, hfile⟩ := loadWeights_eq_ok.mp hload
      rw [lookupFile_storeShards] at hfile
      refine ⟨hpath, ?_⟩
      rcases files_storeShards_iff.mp hfile with ⟨k, hk, heq⟩ | ⟨hother, hbefore⟩
      · exact Or.inl ⟨k, d, hk, heq, hholds⟩
      · exact Or.inr ⟨hother, d, hbefore, hholds⟩
    · rintro ⟨hpath, hfound⟩
      obtain ⟨d, hfile, hholds⟩ : ∃ d, (storeShards path 0 (shards nbytes maxShardSize writes)
          disk).files (lookupFile disk path) = some (.ok d) ∧ Holds writes d := by
        rcases hfound with ⟨k, d, hk, heq, hholds⟩ | ⟨hother, d, hbefore, hholds⟩
        · exact ⟨d, files_storeShards_iff.mpr (Or.inl ⟨k, hk, heq⟩), hholds⟩
        · exact ⟨d, files_storeShards_iff.mpr (Or.inr ⟨hother, hbefore⟩), hholds⟩
      refine ⟨d, loadWeights_eq_ok.mpr ⟨hpath, ?_⟩, hholds⟩
      rw [lookupFile_storeShards, hfile]

/-- A disk with the folder `out` and no file. -/
def outFolder (τ : Type) : Disk τ where
  isDir := fun p => p.root = "" ∧ (p.parts = [] ∨ p.parts = ["out"])
  files := fun _ => none

/-- A small layer is in the one file of the folder. -/
theorem loadsBack_small : Fits id initMaxShardSize [("w", 4096)] ∧
    ∃ disk', writeAll id initMaxShardSize (fun _ => true) (outFolder ℕ) "out" [("w", 4096)] =
        .ok disk' ∧ LoadsBack disk' "out" [("w", 4096)] := by
  have hfits : Fits id initMaxShardSize [("w", 4096)] := fits_iff.mpr (by decide)
  obtain ⟨disk', h⟩ : ∃ disk', writeAll id initMaxShardSize (fun _ => true) (outFolder ℕ) "out"
      [("w", 4096)] = .ok disk' := ⟨_, rfl⟩
  exact ⟨hfits, disk', h, (loadsBack_iff (List.cons_ne_nil _ _) h).mpr (Or.inl hfits)⟩

/-- A layer over the limit is saved as a shard, and no file is found. -/
theorem oversized_layer_not_loaded :
    ∃ disk', writeAll id initMaxShardSize (fun _ => true) (outFolder ℕ) "out"
        [("w", 2147483649)] = .ok disk' ∧
      loadWeights disk' "out" =
        .error (.fileNotFoundError "Safetensors file not found at: out/model.safetensors") ∧
      ¬ LoadsBack disk' "out" [("w", 2147483649)] := by
  refine ⟨_, rfl, rfl, ?_⟩
  rintro ⟨d, hload, -⟩
  cases hload

end

end SafetensorsBridge
