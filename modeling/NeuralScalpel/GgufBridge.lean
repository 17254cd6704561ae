/-
Saving tensors as GGUF and loading them again.

A float tensor is flattened, padded to blocks of 32 and quantised block by block
to two bytes of scale and 32 signed bytes.  Loading gives the numbers back in
the shape the reader reports.

* `quantizeQ80` — the byte array of a tensor, one row of 34 bytes for each block;
* `dequantizeTorch_quantizeQ80` — it is read in the shape `[32, blocks]`;
* `keepsShapes_iff` — only tensors of such a shape keep it.

What float arithmetic does is a parameter, and so is how the library turns the
shape of a byte array into the shape of a tensor.
-/
import NeuralScalpel.DictFill
import NeuralScalpel.FailurePolicy
import Mathlib.Algebra.BigOperators.Group.List.Basic
import Mathlib.Algebra.Group.Action.Defs
import Mathlib.Algebra.Ring.Rat

/-! ### Arrays -/

/-- An array: a shape and as many elements, in row-major order. -/
structure NdArray (α : Type) where
  shape : List ℕ
  data : List α
  wf : data.length = shape.prod

namespace NdArray

variable {α β : Type}

def numel (a : NdArray α) : ℕ := a.data.length

/-- `torch.zeros(shape)`. -/
def zeros (zero : α) (shape : List ℕ) : NdArray α :=
  ⟨shape, List.replicate shape.prod zero, List.length_replicate⟩

/-- `a.reshape(shape)`. -/
def reshape (a : NdArray α) (shape : List ℕ) : Except PyError (NdArray α) :=
  if h : a.data.length = shape.prod then .ok ⟨shape, a.data, h⟩
  else .error (.runtimeError ("shape '" ++ toString shape ++ "' is invalid for input of size " ++
    Nat.repr a.numel))

/-- `a.flatten()`. -/
def flatten (a : NdArray α) : NdArray α := ⟨[a.data.length], a.data, by simp⟩

/-- `a[:n]`: the first `n` entries along the first dimension. -/
def take (a : NdArray α) (n : ℕ) : NdArray α where
  shape := match a.shape with
    | [] => []
    | d :: ds => min n d :: ds
  data := match a.shape with
    | [] => a.data
    | _ :: ds => a.data.take (n * ds.prod)
  wf := by
    have hwf := a.wf
    rcases hshape : a.shape with _ | ⟨d, ds⟩
    · rw [hshape] at hwf
      exact hwf
    · rw [hshape, List.prod_cons] at hwf
      rw [List.length_take, hwf, List.prod_cons, Nat.mul_min_mul_right]

/-- Taking no fewer entries than there are takes everything. -/
theorem data_take_of_le {a : NdArray α} {n d : ℕ} {ds : List ℕ} (hshape : a.shape = d :: ds)
    (hn : d ≤ n) : (a.take n).data = a.data := by
  have hlen : a.data.length ≤ n * ds.prod := by
    rw [a.wf, hshape, List.prod_cons]
    exact Nat.mul_le_mul_right ds.prod hn
  simp only [take, hshape]
  exact List.take_of_length_le hlen

/-- The rows of a two-dimensional array. -/
def rows (n k : ℕ) (data : List α) : List (List α) :=
  (List.range n).map fun i => (data.drop (i * k)).take k

theorem length_of_mem_rows {n k : ℕ} {data row : List α} (h : data.length = n * k)
    (hrow : row ∈ rows n k data) : row.length = k := by
  obtain ⟨i, hi, rfl⟩ := List.mem_map.mp hrow
  have hlt : (i + 1) * k ≤ n * k := Nat.mul_le_mul_right k (List.mem_range.mp hi)
  rw [Nat.succ_mul] at hlt
  rw [List.length_take, List.length_drop]
  omega

/-- Working on each row changes the length of the rows. -/
theorem length_flatMap_rows {n k m : ℕ} {data : List α} {f : List α → List β}
    (h : data.length = n * k) (hf : ∀ row : List α, row.length = k → (f row).length = m) :
    ((rows n k data).flatMap f).length = n * m := by
  have hconst : ∀ row ∈ rows n k data, (f row).length = m :=
    fun row hrow => hf row (length_of_mem_rows h hrow)
  rw [List.length_flatMap, List.map_congr_left hconst, List.map_const', List.sum_replicate,
    rows, List.length_map, List.length_range, smul_eq_mul]

end NdArray

/-! ### Blocks -/

/-- What float arithmetic does, on float32 values. -/
structure FloatArith (α : Type) where
  ofRat : ℚ → α
  add : α → α → α
  mul : α → α → α
  div : α → α → α
  abs : α → α
  max : α → α → α
  round : α → α
  toInt8 : α → Int8
  ofInt8 : Int8 → α
  /-- The two bytes of the nearest float16. -/
  halfBytes : α → UInt8 × UInt8
  ofHalfBytes : UInt8 → UInt8 → α
  /-- `.to(torch.float16)`. -/
  roundHalf : α → α

namespace GGUFBridge

section

variable {α : Type} (arith : FloatArith α)

/-- The greatest absolute value of a block. -/
def absMax : List α → α
  | [] => arith.ofRat 0
  | x :: block => block.foldl (fun m y => arith.max m (arith.abs y)) (arith.abs x)

/-- One row of the byte array: the scale and a signed byte for each element. -/
def quantizeBlock (block : List α) : List UInt8 :=
  let delta := arith.div (absMax arith block) (arith.ofRat 127)
  let scale := arith.halfBytes delta
  [scale.1, scale.2] ++ block.map fun x =>
    (arith.toInt8 (arith.round
      (arith.div x (arith.add delta (arith.ofRat (1 / 1000000000000)))))).toUInt8

def q80Values : List UInt8 → List α
  | b₀ :: b₁ :: qs => qs.map fun q => arith.mul (arith.ofInt8 q.toInt8) (arith.ofHalfBytes b₀ b₁)
  | _ => []

/-- The low half of each byte is one element, the high half the next. -/
def q40Values : List UInt8 → List α
  | b₀ :: b₁ :: qs => qs.flatMap fun q : UInt8 =>
    [arith.mul (arith.ofInt8 ((q &&& 0x0F).toInt8 - 8)) (arith.ofHalfBytes b₀ b₁),
      arith.mul (arith.ofInt8 ((q >>> 4).toInt8 - 8)) (arith.ofHalfBytes b₀ b₁)]
  | _ => []

theorem length_quantizeBlock (block : List α) :
    (quantizeBlock arith block).length = 2 + block.length := by
  rw [quantizeBlock, List.length_append, List.length_map]
  rfl

theorem length_q80Values {row : List UInt8} (h : row.length = 34) :
    (q80Values arith row).length = 32 := by
  match row, h with
  | b₀ :: b₁ :: qs, h =>
    rw [q80Values, List.length_map]
    simp only [List.length_cons] at h
    omega

/-! ### Quantising -/

/-- How many blocks hold so many elements. -/
def blockCount (numel : ℕ) : ℕ := (numel + 31) / 32

/-- The flat elements, filled up with zeros to whole blocks. -/
def padded (x : List α) : List α :=
  if x.length % 32 ≠ 0 then x ++ List.replicate (32 - x.length % 32) (arith.ofRat 0) else x

theorem length_padded (x : List α) : (padded arith x).length = blockCount x.length * 32 := by
  unfold padded blockCount
  split_ifs with h
  · rw [List.length_append, List.length_replicate]
    omega
  · omega

/-- `_quantize_q8_0`. -/
def quantizeQ80 (tensor : NdArray α) : NdArray UInt8 :=
  let x := padded arith tensor.flatten.data
  -- after padding the elements fall into whole blocks
  have hlen : x.length = x.length / 32 * 32 := by
    rw [show x.length = blockCount tensor.flatten.data.length * 32 from length_padded arith _,
      Nat.mul_div_cancel _ (by omega)]
  { shape := [x.length / 32, 34]
    data := (NdArray.rows (x.length / 32) 32 x).flatMap (quantizeBlock arith)
    wf := by
      rw [NdArray.length_flatMap_rows hlen fun row hrow => by
        rw [length_quantizeBlock, hrow]]
      simp }

theorem shape_quantizeQ80 (tensor : NdArray α) :
    (quantizeQ80 arith tensor).shape = [blockCount tensor.numel, 34] := by
  show [(padded arith tensor.data).length / 32, 34] = _
  rw [length_padded, Nat.mul_div_cancel _ (by omega), NdArray.numel]

/-! ### Dequantising -/

/-- The part of `_dequantize_torch` for one type of block: the bytes in rows,
the numbers of each row, the first so many of them in the given shape. -/
def dequantizeBlocks (values : List UInt8 → List α) (rowBytes : ℕ) (data : NdArray UInt8)
    (shape : List ℕ) : Except PyError (NdArray α) :=
  let nBlocks := data.numel / rowBytes
  -- too few bytes for a block: an array of zeros instead
  if nBlocks = 0 then .ok (.zeros (arith.ofRat 0) shape)
  else do
    let blocks ← (data.take (nBlocks * rowBytes)).reshape [nBlocks, rowBytes]
    let flat := ((NdArray.rows nBlocks rowBytes blocks.data).flatMap values).map arith.roundHalf
    -- cut to the reported shape, which need not be the shape that was saved
    NdArray.reshape ⟨[(flat.take shape.prod).length], flat.take shape.prod, by simp⟩ shape

/-- How the elements of a tensor are stored. -/
inductive ReaderData (α : Type)
  | f16 (data : NdArray α)
  | f32 (data : NdArray α)
  | q80 (data : NdArray UInt8)
  | q40 (data : NdArray UInt8)
  | other

/-- A tensor of a file, with the shape the reader reports. -/
structure ReaderTensor (α : Type) where
  name : String
  shape : List ℕ
  data : ReaderData α

/-- `_dequantize_torch`, for the types that are not read directly. -/
def dequantizeTorch (data : ReaderData α) (shape : List ℕ) : Except PyError (NdArray α) :=
  match data with
  | .q80 bytes => dequantizeBlocks arith (q80Values arith) 34 bytes shape
  | .q40 bytes => dequantizeBlocks arith (q40Values arith) 18 bytes shape
  -- unknown types are loaded as zeros
  | _ => .ok (.zeros (arith.ofRat 0) shape)

def loadTensor (tensor : ReaderTensor α) : Except PyError (NdArray α) :=
  match tensor.data with
  | .f16 data => .ok data
  | .f32 data => .ok data
  | data => dequantizeTorch arith data tensor.shape

/-! ### Writing -/

inductive TorchDtype
  | float16
  | float32
  /-- Another type, and the array as the library stores it. -/
  | other
  deriving DecidableEq

/-- A tensor in memory. -/
structure TorchTensor (α : Type) where
  dtype : TorchDtype
  array : NdArray α

/-- What the library does with shapes. -/
structure GgufLibrary (α : Type) where
  /-- The shape of a tensor from the shape of its byte array. -/
  elementShape : List ℕ → List ℕ
  /-- The shape the reader reports for a tensor. -/
  reportedShape : List ℕ → List ℕ
  /-- How an array of another type is stored; some are refused. -/
  storeRaw : NdArray α → Except PyError (ReaderData α)

variable (library : GgufLibrary α)

/-- `write_layer` with an open writer: what the file holds afterwards. -/
def writeLayer (tensors : List (ReaderTensor α)) (name : String) (tensor : TorchTensor α) :
    Except PyError (List (ReaderTensor α)) :=
  if tensor.dtype = .float32 ∨ tensor.dtype = .float16 then
    -- the shape of the tensor is not written, only that of its bytes
    let qData := quantizeQ80 arith tensor.array
    .ok (tensors ++ [⟨name, library.reportedShape (library.elementShape qData.shape), .q80 qData⟩])
  else do
    let data ← library.storeRaw tensor.array
    .ok (tensors ++ [⟨name, library.reportedShape tensor.array.shape, data⟩])

def writeLayers : List (String × TorchTensor α) → List (ReaderTensor α) →
    Except PyError (List (ReaderTensor α))
  | [], tensors => .ok tensors
  | e :: rest, tensors => do
    let tensors ← writeLayer arith library tensors e.1 e.2
    writeLayers rest tensors

/-- `save_weights`: the files afterwards. -/
def saveWeights (files : String → Option (List (ReaderTensor α))) (path : String)
    (stateDict : Dict String (TorchTensor α)) :
    Except PyError (String → Option (List (ReaderTensor α))) := do
  let tensors ← writeLayers arith library stateDict.entries []
  pure fun p => if p = path then some tensors else files p

def loadWeights (files : String → Option (List (ReaderTensor α))) (path : String) :
    Except PyError (Dict String (NdArray α)) :=
  match files path with
  | none => .error (.fileNotFoundError ("GGUF file not found at: " ++ path))
  | some tensors => Dict.fill (fun _ tensor => (loadTensor arith tensor).map some)
      (tensors.map fun tensor => (tensor.name, tensor)) .empty

end

/-! ### What becomes of a shape -/

section

variable {α : Type} {arith : FloatArith α} {library : GgufLibrary α}

variable (arith) in
/-- A quantised tensor is read in the shape that is reported, if that has as
many elements as the blocks. -/
theorem dequantizeTorch_quantizeQ80 (tensor : NdArray α) :
    ∃ loaded, dequantizeTorch arith (.q80 (quantizeQ80 arith tensor))
        [32, blockCount tensor.numel] = .ok loaded ∧
      loaded.shape = [32, blockCount tensor.numel] := by
  set k := blockCount tensor.numel with hk
  have hshape : (quantizeQ80 arith tensor).shape = [k, 34] := shape_quantizeQ80 arith tensor
  have hlen : (quantizeQ80 arith tensor).data.length = k * 34 := by
    rw [(quantizeQ80 arith tensor).wf, hshape]
    simp
  have hcount : (quantizeQ80 arith tensor).numel / 34 = k := by
    rw [NdArray.numel, hlen, Nat.mul_div_cancel _ (by omega)]
  simp only [dequantizeTorch, dequantizeBlocks, hcount]
  split_ifs with hzero
  · exact ⟨_, rfl, rfl⟩
  · -- taking rows takes everything, and the blocks have as many elements as the shape
    have hdata : ((quantizeQ80 arith tensor).take (k * 34)).data =
        (quantizeQ80 arith tensor).data := NdArray.data_take_of_le hshape (by omega)
    have htake : ((quantizeQ80 arith tensor).take (k * 34)).data.length = [k, 34].prod := by
      rw [hdata, hlen]
      simp
    rw [NdArray.reshape, dif_pos htake]
    show ∃ loaded, NdArray.reshape _ _ = .ok loaded ∧ _
    have hflat : ((NdArray.rows k 34 ((quantizeQ80 arith tensor).take (k * 34)).data).flatMap
        (q80Values arith)).length = k * 32 :=
      NdArray.length_flatMap_rows (by simpa using htake) fun row hrow =>
        length_q80Values arith hrow
    rw [NdArray.reshape, dif_pos]
    · exact ⟨_, rfl, rfl⟩
    · rw [List.length_take, List.length_map, hflat]
      simp
      omega

/-- What `write_layer` adds for a float tensor. -/
def savedTensor (arith : FloatArith α) (library : GgufLibrary α)
    (e : String × TorchTensor α) : ReaderTensor α where
  name := e.1
  shape := library.reportedShape (library.elementShape (quantizeQ80 arith e.2.array).shape)
  data := .q80 (quantizeQ80 arith e.2.array)

theorem writeLayers_float {l : List (String × TorchTensor α)} :
    ∀ {tensors : List (ReaderTensor α)},
      (∀ e ∈ l, e.2.dtype = .float32 ∨ e.2.dtype = .float16) →
      writeLayers arith library l tensors = .ok (tensors ++ l.map (savedTensor arith library)) := by
  induction l with
  | nil =>
    intro tensors _
    rw [writeLayers, List.map_nil, List.append_nil]
  | cons e l ih =>
    intro tensors hfloat
    have hwrite : writeLayer arith library tensors e.1 e.2 =
        .ok (tensors ++ [savedTensor arith library e]) :=
      if_pos (hfloat e List.mem_cons_self)
    rw [writeLayers, hwrite]
    show writeLayers arith library l (tensors ++ [savedTensor arith library e]) = _
    rw [ih fun e' he' => hfloat e' (List.mem_cons_of_mem _ he'), List.append_assoc,
      List.map_cons, List.singleton_append]

/-- The documented shapes: 34 bytes of the last dimension are 32 elements, and
dimensions are reported innermost first. -/
structure GgufLibrary.Documented (library : GgufLibrary α) : Prop where
  elementShape_rows : ∀ dims blocks,
    library.elementShape (dims ++ [34 * blocks]) = dims ++ [32 * blocks]
  reportedShape_eq : ∀ shape, library.reportedShape shape = shape.reverse

variable (arith) in
theorem shape_savedTensor (hlibrary : GgufLibrary.Documented library)
    (e : String × TorchTensor α) :
    (savedTensor arith library e).shape = [32, blockCount e.2.array.numel] := by
  -- one block to a row, so the 34 bytes are 32 elements
  have helement := hlibrary.elementShape_rows [blockCount e.2.array.numel] 1
  rw [savedTensor, shape_quantizeQ80, hlibrary.reportedShape_eq]
  simp only [List.singleton_append] at helement
  rw [helement]
  rfl

/-- The tensors of the file, under their names. -/
def savedEntries (arith : FloatArith α) (library : GgufLibrary α)
    (stateDict : Dict String (TorchTensor α)) : List (String × ReaderTensor α) :=
  (stateDict.entries.map (savedTensor arith library)).map fun tensor => (tensor.name, tensor)

variable (arith library) in
theorem keys_savedEntries (stateDict : Dict String (TorchTensor α)) :
    (savedEntries arith library stateDict).map Prod.fst = stateDict.keys := by
  rw [savedEntries, List.map_map, List.map_map]
  rfl

theorem mem_savedEntries {stateDict : Dict String (TorchTensor α)} {name : String}
    {tensor : ReaderTensor α} :
    (name, tensor) ∈ savedEntries arith library stateDict ↔
      ∃ t, stateDict.get? name = some t ∧ tensor = savedTensor arith library (name, t) := by
  rw [savedEntries, List.map_map, List.mem_map]
  constructor
  · rintro ⟨e, hmem, heq⟩
    cases heq
    exact ⟨e.2, Dict.mem_entries_iff.mp hmem, rfl⟩
  · rintro ⟨t, hget, rfl⟩
    exact ⟨(name, t), Dict.mem_entries_iff.mpr hget, rfl⟩

variable (arith) in
/-- A float tensor is loaded in the shape of its blocks. -/
theorem loadTensor_savedTensor (hlibrary : GgufLibrary.Documented library)
    (e : String × TorchTensor α) :
    ∃ loaded, loadTensor arith (savedTensor arith library e) = .ok loaded ∧
      loaded.shape = [32, blockCount e.2.array.numel] := by
  have h := dequantizeTorch_quantizeQ80 arith e.2.array
  rw [← shape_savedTensor arith hlibrary e] at h ⊢
  exact h

variable (arith) in
/-- What is loaded has the names that were saved, and the shapes of the blocks. -/
theorem loadWeights_saveWeights (hlibrary : GgufLibrary.Documented library)
    {stateDict : Dict String (TorchTensor α)}
    (hfloat : ∀ e ∈ stateDict.entries, e.2.dtype = .float32 ∨ e.2.dtype = .float16)
    (files : String → Option (List (ReaderTensor α))) (path : String) :
    ∃ files' loaded, saveWeights arith library files path stateDict = .ok files' ∧
      loadWeights arith files' path = .ok loaded ∧
      ∀ name, (loaded.get? name).map NdArray.shape =
        (stateDict.get? name).map fun t => [32, blockCount t.array.numel] := by
  have hsave : saveWeights arith library files path stateDict = .ok fun p =>
      if p = path then some (stateDict.entries.map (savedTensor arith library)) else files p := by
    rw [saveWeights, writeLayers_float hfloat, List.nil_append]
    rfl
  have hstep : ∀ name t, ∃ v,
      (loadTensor arith (savedTensor arith library (name, t))).map some = .ok (some v) ∧
        v.shape = [32, blockCount t.array.numel] := by
    intro name t
    obtain ⟨v, hv, hshape⟩ := loadTensor_savedTensor arith hlibrary (name, t)
    exact ⟨v, by rw [hv]; rfl, hshape⟩
  obtain ⟨loaded, hload⟩ : ∃ loaded, Dict.fill (fun _ tensor => (loadTensor arith tensor).map some)
      (savedEntries arith library stateDict) .empty = .ok loaded := by
    rw [Dict.fill_ok_iff]
    intro name tensor hmem
    obtain ⟨t, -, rfl⟩ := mem_savedEntries.mp hmem
    obtain ⟨v, hv, -⟩ := hstep name t
    exact ⟨some v, hv⟩
  -- names occur once, so what is loaded under one is its own tensor
  have hget := fun name v => Dict.get?_fill_of_fresh (k := name) (v := v)
    ((keys_savedEntries arith library stateDict) ▸ stateDict.nodup)
    (fun k _ _ => Dict.get?_empty k) hload
  refine ⟨_, loaded, hsave, ?_, fun name => ?_⟩
  · rw [loadWeights, if_pos rfl]
    exact hload
  · cases hsource : stateDict.get? name with
    | none =>
      -- nothing was saved under the name
      cases hloaded : loaded.get? name with
      | none => rfl
      | some v =>
        rcases (hget name v).mp hloaded with h | ⟨tensor, hmem, -⟩
        · cases h
        · obtain ⟨t, ht, -⟩ := mem_savedEntries.mp hmem
          rw [hsource] at ht
          cases ht
    | some t =>
      obtain ⟨v, hv, hshape⟩ := hstep name t
      have hloaded := (hget name v).mpr
        (Or.inr ⟨_, mem_savedEntries.mpr ⟨t, hsource, rfl⟩, hv⟩)
      rw [hloaded, Option.map_some, Option.map_some, hshape]

end

/-! ### Which shapes are kept -/

section

variable {α : Type} {arith : FloatArith α} {library : GgufLibrary α}

/-- Saved and loaded, the dictionary has the same names, with tensors of the
same shapes. -/
def KeepsShapes (arith : FloatArith α) (library : GgufLibrary α)
    (files : String → Option (List (ReaderTensor α))) (path : String)
    (stateDict : Dict String (TorchTensor α)) : Prop :=
  ∃ files' loaded, saveWeights arith library files path stateDict = .ok files' ∧
    loadWeights arith files' path = .ok loaded ∧
    ∀ name, (loaded.get? name).map NdArray.shape =
      (stateDict.get? name).map fun t => t.array.shape

theorem blockCount_of_shape {a : NdArray α} {n : ℕ} (h : a.shape = [32, n]) :
    blockCount a.numel = n := by
  have hlen : a.data.length = 32 * n := by
    rw [a.wf, h]
    simp
  rw [blockCount, NdArray.numel, hlen]
  omega

/-- A tensor that keeps its shape has the shape of its blocks. -/
theorem shape_of_keepsShapes (hlibrary : GgufLibrary.Documented library)
    {stateDict : Dict String (TorchTensor α)}
    (hfloat : ∀ e ∈ stateDict.entries, e.2.dtype = .float32 ∨ e.2.dtype = .float16)
    {files : String → Option (List (ReaderTensor α))} {path : String}
    (h : KeepsShapes arith library files path stateDict) {name : String} {t : TorchTensor α}
    (hget : stateDict.get? name = some t) :
    t.array.shape = [32, blockCount t.array.numel] := by
  obtain ⟨files', loaded, hsave, hload, hkeeps⟩ := h
  obtain ⟨files₁, loaded₁, hsave₁, hload₁, hshapes⟩ :=
    loadWeights_saveWeights arith hlibrary hfloat files path
  rw [hsave] at hsave₁
  cases hsave₁
  rw [hload] at hload₁
  cases hload₁
  have hshape := (hkeeps name).symm.trans (hshapes name)
  rw [hget] at hshape
  exact Option.some.inj hshape

/-- Only tensors with 32 rows keep their shape. -/
theorem keepsShapes_iff (hlibrary : GgufLibrary.Documented library)
    {stateDict : Dict String (TorchTensor α)}
    (hfloat : ∀ e ∈ stateDict.entries, e.2.dtype = .float32 ∨ e.2.dtype = .float16)
    (files : String → Option (List (ReaderTensor α))) (path : String) :
    KeepsShapes arith library files path stateDict ↔
      ∀ name t, stateDict.get? name = some t → ∃ n, t.array.shape = [32, n] := by
  constructor
  · intro h name t hget
    exact ⟨_, shape_of_keepsShapes hlibrary hfloat h hget⟩
  · intro h
    obtain ⟨files', loaded, hsave, hload, hshapes⟩ :=
      loadWeights_saveWeights arith hlibrary hfloat files path
    refine ⟨files', loaded, hsave, hload, fun name => ?_⟩
    rw [hshapes name]
    cases hget : stateDict.get? name with
    | none => rfl
    | some t =>
      obtain ⟨n, hn⟩ := h name t hget
      rw [Option.map_some, Option.map_some, blockCount_of_shape hn, hn]

/-- Exact arithmetic; the scale of a zero block is zero. -/
def zeroArith : FloatArith ℚ where
  ofRat := id
  add := (· + ·)
  mul := (· * ·)
  div := (· / ·)
  abs := fun x => if x < 0 then -x else x
  max := fun x y => if x < y then y else x
  round := fun x => (x + 1 / 2).floor
  toInt8 := fun x => Int8.ofInt (max (-128) (min 127 x.floor))
  ofInt8 := fun q => q.toInt
  halfBytes := fun _ => (0, 0)
  ofHalfBytes := fun _ _ => 0
  roundHalf := id

def rowLibrary (α : Type) : GgufLibrary α where
  elementShape := fun shape => shape.dropLast ++ [shape.getLastD 0 / 34 * 32]
  reportedShape := List.reverse
  storeRaw := fun _ => .ok .other

theorem documented_rowLibrary : GgufLibrary.Documented (rowLibrary α) where
  elementShape_rows := by
    intro dims blocks
    show (dims ++ [34 * blocks]).dropLast ++ _ = _
    rw [List.dropLast_concat, List.getLastD_concat, Nat.mul_comm 34,
      Nat.mul_div_cancel _ (by omega), Nat.mul_comm]
  reportedShape_eq := fun _ => rfl

/-- One float16 tensor of zeros. -/
def zeroDict (shape : List ℕ) : Dict String (TorchTensor ℚ) :=
  Dict.empty.set "layer.weight" ⟨.float16, .zeros 0 shape⟩

theorem float_zeroDict (shape : List ℕ) :
    ∀ e ∈ (zeroDict shape).entries, e.2.dtype = .float32 ∨ e.2.dtype = .float16 := by
  intro e hmem
  cases List.mem_singleton.mp hmem
  exact Or.inr rfl

theorem keepsShapes_zeros :
    KeepsShapes zeroArith (rowLibrary ℚ) (fun _ => none) "model.gguf" (zeroDict [32, 2]) := by
  refine (keepsShapes_iff documented_rowLibrary (float_zeroDict _) _ _).mpr fun name t hget => ?_
  cases List.mem_singleton.mp (Dict.mem_entries_iff.mpr hget)
  exact ⟨2, rfl⟩

/-- A row of 64 elements is loaded in the shape `[32, 2]`. -/
theorem row_loses_shape :
    ¬ KeepsShapes zeroArith (rowLibrary ℚ) (fun _ => none) "model.gguf" (zeroDict [1, 64]) := by
  intro h
  have hget : (zeroDict [1, 64]).get? "layer.weight" = some ⟨.float16, .zeros 0 [1, 64]⟩ := rfl
  have hshape := shape_of_keepsShapes documented_rowLibrary (float_zeroDict _) h hget
  exact absurd hshape (by decide)

end

end GGUFBridge
