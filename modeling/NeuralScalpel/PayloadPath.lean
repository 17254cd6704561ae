/-
Where payload URIs lead.

The validator and the loader open the file a payload URI resolves to: below the
base directory if the URI is relative, and anywhere at all if it is absolute.
Neither looks at `..` or at the extension.

* `ofString_str` — parsing the text of a path gives the path back;
* `inside_iff` — what it is to lie inside a directory, normalised lexically;
* `opensOnlyInside_iff` — which URIs stay inside the base directory and name a
  safetensors file.
-/
import NeuralScalpel.LexicalPath
import NeuralScalpel.PayloadAgreement
import NeuralScalpel.Words

open LexicalPath

namespace PurePosixPath

/-! ### Texts of paths -/

/-- What every parsed path is: its root is one of three, and its components are
names or `..`. -/
structure WellFormed (p : PurePosixPath) : Prop where
  root : p.root = "" ∨ p.root = "/" ∨ p.root = "//"
  parts : ∀ part ∈ p.parts, part ≠ "" ∧ part ≠ "." ∧ '/' ∉ part.toList

theorem rootOf_cases (cs : List Char) : rootOf cs = "" ∨ rootOf cs = "/" ∨ rootOf cs = "//" := by
  unfold rootOf
  split <;> simp

theorem wellFormed_ofString (s : String) : (ofString s).WellFormed where
  root := rootOf_cases _
  parts part hpart := by
    obtain ⟨hmem, hnames⟩ := List.mem_filter.mp hpart
    obtain ⟨word, hword, rfl⟩ := List.mem_map.mp hmem
    obtain ⟨hempty, hdot⟩ := of_decide_eq_true hnames
    refine ⟨hempty, hdot, ?_⟩
    rw [String.toList_ofList]
    rw [List.splitOn_eq_splitOnP] at hword
    exact fun hslash => absurd (Words.not_sep_of_mem_word hword _ hslash) (by simp)

theorem WellFormed.join {base p : PurePosixPath} (hbase : base.WellFormed) (hp : p.WellFormed) :
    (base.join p).WellFormed where
  root := hbase.root
  parts part hpart := (List.mem_append.mp hpart).elim (hbase.parts part) (hp.parts part)

/-- A root in front of something that does not begin with a slash is read back. -/
theorem rootOf_append {root : String} (hroot : root = "" ∨ root = "/" ∨ root = "//")
    {cs : List Char} (hcs : ∀ rest, cs ≠ '/' :: rest) : rootOf (root.toList ++ cs) = root := by
  have hbegins : ∀ {c rest}, cs = c :: rest → c ≠ '/' := fun heq hslash =>
    hcs _ (hslash ▸ heq)
  rcases hroot with rfl | rfl | rfl
  all_goals
    rcases cs with _ | ⟨c, cs⟩
    · rfl
    · have hc : c ≠ '/' := hbegins rfl
      simp [rootOf, hc]

/-- The components of a path, as characters. -/
def chars (p : PurePosixPath) : List Char := ['/'].intercalate (p.parts.map String.toList)

theorem toList_str {p : PurePosixPath} (h : ¬(p.root = "" ∧ p.parts = [])) :
    p.str.toList = p.root.toList ++ p.chars := by
  rw [str, if_neg h, String.toList_append, String.toList_intercalate]
  rfl

/-- The components do not begin with a slash. -/
theorem WellFormed.chars_ne {p : PurePosixPath} (h : p.WellFormed) (rest : List Char) :
    p.chars ≠ '/' :: rest := by
  intro heq
  unfold chars at heq
  cases hparts : p.parts with
  | nil =>
    rw [hparts] at heq
    cases heq
  | cons part parts =>
    obtain ⟨hempty, -, hslash⟩ := h.parts part (by simp [hparts])
    obtain ⟨tail, htail⟩ : ∃ tail, ['/'].intercalate ((part :: parts).map String.toList) =
        part.toList ++ tail := by
      cases parts with
      | nil => exact ⟨[], by simp⟩
      | cons part' parts => exact ⟨_, by simp [List.append_assoc]; rfl⟩
    rw [hparts, htail] at heq
    cases hchars : part.toList with
    | nil => exact hempty (String.toList_eq_nil_iff.mp hchars)
    | cons c cs =>
      rw [hchars, List.cons_append, List.cons.injEq] at heq
      exact hslash (hchars ▸ heq.1 ▸ List.mem_cons_self)

/-- Splitting the components at the slashes gives them back. -/
theorem WellFormed.parts_of_chars {p : PurePosixPath} (h : p.WellFormed) :
    ((p.chars.splitOn '/').map String.ofList).filter (fun part => part ≠ "" ∧ part ≠ ".") =
      p.parts := by
  have hkeep : p.parts.filter (fun part => part ≠ "" ∧ part ≠ ".") = p.parts := by
    refine List.filter_eq_self.mpr fun part hpart => ?_
    obtain ⟨hempty, hdot, -⟩ := h.parts part hpart
    exact decide_eq_true ⟨hempty, hdot⟩
  unfold chars
  by_cases hparts : p.parts = []
  · rw [hparts]
    decide +kernel
  · have hsplit : (['/'].intercalate (p.parts.map String.toList)).splitOn '/' =
        p.parts.map String.toList := by
      refine List.splitOn_intercalate '/' (fun word hword => ?_) (by simpa using hparts)
      obtain ⟨part, hpart, rfl⟩ := List.mem_map.mp hword
      exact (h.parts part hpart).2.2
    rw [hsplit, List.map_map]
    have hid : p.parts.map (String.ofList ∘ String.toList) = p.parts := by
      simp
    rw [hid, hkeep]

/-- Parsing the text of a path gives the path back. -/
theorem ofString_str {p : PurePosixPath} (h : p.WellFormed) : ofString p.str = p := by
  by_cases hempty : p.root = "" ∧ p.parts = []
  · obtain ⟨root, parts⟩ := p
    obtain ⟨rfl, rfl⟩ := hempty
    decide +kernel
  · unfold ofString
    rw [toList_str hempty]
    have hparts := h.parts_of_chars
    have hnames : (((p.root.toList ++ p.chars).splitOn '/').map String.ofList).filter
        (fun part => part ≠ "" ∧ part ≠ ".") = p.parts := by
      -- the slashes of the root split off empty words
      have hslash : ∀ cs : List Char, ('/' :: cs).splitOn '/' = [] :: cs.splitOn '/' := by
        intro cs
        rw [List.splitOn_cons_eq_if_modifyHead, if_pos (beq_self_eq_true '/')]
      rcases h.root with hroot | hroot | hroot
      · rw [hroot]
        exact hparts
      · rw [hroot, show "/".toList ++ p.chars = '/' :: p.chars from rfl, hslash]
        exact hparts
      · rw [hroot, show "//".toList ++ p.chars = '/' :: '/' :: p.chars from rfl, hslash, hslash]
        exact hparts
    rw [hnames, rootOf_append h.root h.chars_ne]

/-! ### Lying inside a directory -/

/-- Where the components lead. -/
def place (p : PurePosixPath) : Place String := walk ".." .here p.parts

/-- `os.path.normpath`: at the root there is nothing further up. -/
def normpath (p : PurePosixPath) : PurePosixPath :=
  ⟨p.root,
    if p.isAbsolute then p.place.names else List.replicate p.place.ups ".." ++ p.place.names⟩

/-- Normalised lexically, the path goes on below the base. -/
def Inside (base path : PurePosixPath) : Prop :=
  path.root = base.root ∧ ∃ rest, rest ≠ [] ∧ ".." ∉ rest ∧
    path.normpath.parts = base.normpath.parts ++ rest

/-- The normalised path ends in the extension of a safetensors file. -/
def IsSafetensors (path : PurePosixPath) : Prop :=
  ".safetensors".toList <:+ path.normpath.str.toList

theorem up_not_mem_names (p : PurePosixPath) : ".." ∉ p.place.names :=
  up_not_mem_walk (by simp [Place.here]) p.parts

/-- Two descents after climbs are equal only climb by climb and name by name. -/
theorem replicate_append_inj {α : Type} {u : α} {xs ys : List α} (hxs : u ∉ xs) (hys : u ∉ ys) :
    ∀ {i j : ℕ}, List.replicate i u ++ xs = List.replicate j u ++ ys ↔ i = j ∧ xs = ys := by
  intro i
  induction i with
  | zero =>
    intro j
    cases j with
    | zero => simp
    | succ j =>
      refine iff_of_false (fun h => hxs ?_) (by simp)
      rw [List.replicate_zero, List.nil_append] at h
      rw [h, List.replicate_succ]
      exact List.mem_cons_self
  | succ i ih =>
    intro j
    cases j with
    | zero =>
      refine iff_of_false (fun h => hys ?_) (by simp)
      rw [List.replicate_zero, List.nil_append] at h
      rw [← h, List.replicate_succ]
      exact List.mem_cons_self
    | succ j => simp [List.replicate_succ, ih]

/-- Lying inside, in terms of where the paths lead. -/
theorem inside_iff {base path : PurePosixPath} :
    Inside base path ↔ path.root = base.root ∧
      (base.isAbsolute = false → path.place.ups = base.place.ups) ∧
        ∃ rest, rest ≠ [] ∧ path.place.names = base.place.names ++ rest := by
  unfold Inside
  refine and_congr_right fun hroot => ?_
  have habs : path.isAbsolute = base.isAbsolute := by rw [isAbsolute, isAbsolute, hroot]
  have hnames : ∀ {rest}, path.place.names = base.place.names ++ rest → ".." ∉ rest :=
    fun heq hmem => path.up_not_mem_names (heq ▸ List.mem_append_right _ hmem)
  unfold normpath
  rw [habs]
  cases hbase : base.isAbsolute with
  | true =>
    constructor
    · rintro ⟨rest, hne, -, heq⟩
      exact ⟨fun h => (Bool.noConfusion h), rest, hne, heq⟩
    · rintro ⟨-, rest, hne, heq⟩
      exact ⟨rest, hne, hnames heq, heq⟩
  | false =>
    simp only [Bool.false_eq_true, if_false, List.append_assoc]
    constructor
    · rintro ⟨rest, hne, hup, heq⟩
      have hbelow : ".." ∉ base.place.names ++ rest := fun hmem =>
        (List.mem_append.mp hmem).elim base.up_not_mem_names hup
      obtain ⟨hups, heq⟩ := (replicate_append_inj path.up_not_mem_names hbelow).mp heq
      exact ⟨fun _ => hups, rest, hne, heq⟩
    · rintro ⟨hups, rest, hne, heq⟩
      exact ⟨rest, hne, hnames heq, by rw [hups trivial, heq]⟩

/-- In the text of a path, nothing or a slash stands before the last component. -/
theorem str_concat {root : String} (hroot : root = "" ∨ root = "/" ∨ root = "//")
    (parts : List String) (last : String) :
    (str ⟨root, parts ++ [last]⟩).toList = last.toList ∨
      ∃ front, (str ⟨root, parts ++ [last]⟩).toList = front ++ '/' :: last.toList := by
  have hstr : str ⟨root, parts ++ [last]⟩ = root ++ "/".intercalate (parts ++ [last]) :=
    if_neg fun h => List.append_ne_nil_of_right_ne_nil _ (List.cons_ne_nil _ _) h.2
  rw [hstr]
  by_cases hparts : parts = []
  · subst hparts
    rcases hroot with rfl | rfl | rfl
    · exact Or.inl (by simp)
    · exact Or.inr ⟨[], by simp⟩
    · exact Or.inr ⟨['/'], by simp⟩
  · refine Or.inr ⟨root.toList ++ ("/".intercalate parts).toList, ?_⟩
    rw [String.intercalate_append_of_ne_nil hparts (List.cons_ne_nil _ _)]
    simp

/-- The extension of a path that leads down somewhere is that of its last name. -/
theorem isSafetensors_iff {path : PurePosixPath} (h : path.WellFormed) {names : List String}
    {last : String} (hnames : path.place.names = names ++ [last]) :
    IsSafetensors path ↔ ".safetensors".toList <:+ last.toList := by
  obtain ⟨parts, hparts⟩ : ∃ parts, path.normpath = ⟨path.root, parts ++ [last]⟩ := by
    unfold normpath
    rw [hnames]
    cases path.isAbsolute with
    | true => exact ⟨names, rfl⟩
    | false => exact ⟨_, by rw [← List.append_assoc]; rfl⟩
  unfold IsSafetensors
  rw [hparts]
  rcases str_concat h.root parts last with hstr | ⟨front, hstr⟩
  · rw [hstr]
  · rw [hstr]
    exact suffix_append_cons_iff (by decide)

end PurePosixPath

/-! ### Where a URI leads -/

open PurePosixPath

/-- The path a URI resolves to: a relative one below the base directory, an
absolute one as it is. -/
def payloadPath (base uri : String) : PurePosixPath :=
  let path := ofString (stripFileScheme uri)
  if path.isAbsolute then path else (ofString base).join path

section PayloadPath

variable {base uri : String}

theorem payloadPath_of_absolute (h : (ofString (stripFileScheme uri)).isAbsolute = true) :
    payloadPath base uri = ofString (stripFileScheme uri) := if_pos h

theorem payloadPath_of_relative (h : (ofString (stripFileScheme uri)).isAbsolute = false) :
    payloadPath base uri = (ofString base).join (ofString (stripFileScheme uri)) :=
  if_neg (Bool.eq_false_iff.mp h)

theorem root_of_relative {p : PurePosixPath} (h : p.isAbsolute = false) : p.root = "" := by
  simpa [isAbsolute] using h

theorem wellFormed_payloadPath (base uri : String) : (payloadPath base uri).WellFormed := by
  cases h : (ofString (stripFileScheme uri)).isAbsolute with
  | true =>
    rw [payloadPath_of_absolute h]
    exact wellFormed_ofString _
  | false =>
    rw [payloadPath_of_relative h]
    exact (wellFormed_ofString _).join (wellFormed_ofString _)

theorem resolvePayloadPath_eq_some {routeData : Manifest} {path : String} :
    resolvePayloadPath routeData (some base) = some path ↔
      ∃ block, routeData.payload = some block ∧ block.uri ≠ "" ∧
        (payloadPath base block.uri).str = path := by
  unfold resolvePayloadPath
  cases routeData.payload with
  | none => simp
  | some block =>
    have hblock : (∃ block', some block = some block' ∧ block'.uri ≠ "" ∧
        (payloadPath base block'.uri).str = path) ↔
        block.uri ≠ "" ∧ (payloadPath base block.uri).str = path := by
      simp only [Option.some.injEq, exists_eq_left']
    rw [hblock]
    by_cases huri : block.uri = ""
    · simp [huri]
    · rw [and_iff_right huri]
      simp only [if_neg huri, Option.getD_some]
      cases habs : (ofString (stripFileScheme block.uri)).isAbsolute with
      | true =>
        rw [payloadPath_of_absolute habs]
        simp
      | false =>
        rw [payloadPath_of_relative habs]
        by_cases hbase : base = ""
        · -- an empty base directory adds nothing
          subst hbase
          have hjoin : (ofString "").join (ofString (stripFileScheme block.uri)) =
              ofString (stripFileScheme block.uri) := by
            have hroot := root_of_relative habs
            generalize ofString (stripFileScheme block.uri) = p at hroot
            obtain ⟨root, parts⟩ := p
            cases hroot
            rfl
          rw [hjoin]
          simp
        · simp [hbase]

/-- The URI, relative or absolute, leads on below the base directory through the
names `rest`.  A relative one that climbs comes back down through as many of the
last directories of the base. -/
def LeadsBelow (base uri : String) (rest : List String) : Prop :=
  let path := ofString (stripFileScheme uri)
  let dir := (ofString base).place.names
  if path.isAbsolute then path.root = (ofString base).root ∧ path.place.names = dir ++ rest
  else
    ((ofString base).isAbsolute = false → path.place.ups ≤ dir.length) ∧
      path.place.names = dir.drop (dir.length - path.place.ups) ++ rest

/-- The URI leads below the base directory, to a name with the extension. -/
def Tame (base uri : String) : Prop :=
  ∃ names last, LeadsBelow base uri (names ++ [last]) ∧ ".safetensors".toList <:+ last.toList

/-- A URI leads below the base directory exactly when its path lies inside. -/
theorem leadsBelow_iff {rest : List String} : LeadsBelow base uri rest ↔
    (payloadPath base uri).root = (ofString base).root ∧
      ((ofString base).isAbsolute = false →
        (payloadPath base uri).place.ups = (ofString base).place.ups) ∧
      (payloadPath base uri).place.names = (ofString base).place.names ++ rest := by
  unfold LeadsBelow
  dsimp only
  cases habs : (ofString (stripFileScheme uri)).isAbsolute with
  | true =>
    rw [payloadPath_of_absolute habs, if_pos rfl]
    refine and_congr_right fun hroot => (and_iff_right fun hbase => ?_).symm
    -- an absolute path does not have the root of a relative base
    rw [isAbsolute, hroot] at habs
    exact absurd habs (Bool.eq_false_iff.mp hbase)
  | false =>
    rw [payloadPath_of_relative habs, if_neg Bool.false_ne_true]
    have hplace : ((ofString base).join (ofString (stripFileScheme uri))).place =
        walk ".." (ofString base).place (ofString (stripFileScheme uri)).parts :=
      walk_append _ _ _
    have hups : ((ofString base).join (ofString (stripFileScheme uri))).place.ups =
        (ofString base).place.ups ↔
          (ofString (stripFileScheme uri)).place.ups ≤ (ofString base).place.names.length := by
      rw [hplace, walk_eq]
      show _ + ((ofString (stripFileScheme uri)).place.ups - _) = _ ↔ _
      omega
    rw [hups, hplace, walk_extends_iff]
    exact (and_iff_right rfl).symm

/-- The path of a URI lies inside the base directory and has the extension
exactly when the URI is tame. -/
theorem tame_iff : Tame base uri ↔
    Inside (ofString base) (payloadPath base uri) ∧ IsSafetensors (payloadPath base uri) := by
  have hext : ∀ {names last}, LeadsBelow base uri (names ++ [last]) →
      (IsSafetensors (payloadPath base uri) ↔ ".safetensors".toList <:+ last.toList) := by
    intro names last hleads
    have hnames := (leadsBelow_iff.mp hleads).2.2
    rw [← List.append_assoc] at hnames
    exact isSafetensors_iff (wellFormed_payloadPath base uri) hnames
  rw [inside_iff]
  constructor
  · rintro ⟨names, last, hleads, hlast⟩
    obtain ⟨hroot, hups, hnames⟩ := leadsBelow_iff.mp hleads
    exact ⟨⟨hroot, hups, _, by simp, hnames⟩, (hext hleads).mpr hlast⟩
  · rintro ⟨⟨hroot, hups, rest, hrest, hnames⟩, hsafetensors⟩
    obtain ⟨names, last, rfl⟩ : ∃ names last, rest = names ++ [last] :=
      ⟨rest.dropLast, rest.getLast hrest, (List.dropLast_append_getLast hrest).symm⟩
    have hleads := leadsBelow_iff.mpr ⟨hroot, hups, hnames⟩
    exact ⟨names, last, hleads, (hext hleads).mp hsafetensors⟩

end PayloadPath

/-! ### Files that are opened -/

section Opened

variable {files files' : FileSystem} {base : String} {limit : ℕ} {routeData : Manifest}

/-- The validator opens the file: it exists and is not too large. -/
def OpenedByValidator (files : FileSystem) (base : String) (limit : ℕ) (routeData : Manifest)
    (path : String) : Prop :=
  resolvePayloadPath routeData (some base) = some path ∧
    ∃ file, checkExists path (files path) = .ok file ∧ checkSize limit file = .ok ()

/-- The loader opens the file: it exists. -/
def OpenedByLoader (files : FileSystem) (base : String) (routeData : Manifest) (path : String) :
    Prop :=
  resolvePayloadPath routeData (some base) = some path ∧
    ∃ file, openPayload path (files path) = .ok file

/-- A validation that opens nothing depends only on which files exist and on
their sizes. -/
theorem validatePayload_congr
    (hsize : ∀ path, (files path).map PayloadFile.size = (files' path).map PayloadFile.size)
    (hnot : ∀ path, ¬OpenedByValidator files base limit routeData path) :
    validatePayload files (some base) limit routeData =
      validatePayload files' (some base) limit routeData := by
  unfold validatePayload
  cases hpath : resolvePayloadPath routeData (some base) with
  | none => rfl
  | some path =>
    dsimp only
    have hsame := hsize path
    cases hfile : files path with
    | none =>
      rw [hfile] at hsame
      rw [Option.map_eq_none_iff.mp hsame.symm]
    | some file =>
      rw [hfile] at hsame
      obtain ⟨file', hfile', hsizes⟩ := Option.map_eq_some_iff.mp hsame.symm
      have hcheck : checkSize limit file' = checkSize limit file := by
        rw [checkSize, checkSize, hsizes]
      -- the size check ends it on both sides
      cases hlimit : checkSize limit file with
      | ok u => exact absurd ⟨hpath, file, by rw [hfile]; rfl, hlimit⟩ (hnot path)
      | error e =>
        rw [hfile']
        simp only [checkExists, hlimit, hcheck, bind, Except.bind]

/-- A load that opens nothing depends only on which files exist. -/
theorem loadPayloadDeltas_congr
    (hexists : ∀ path, (files path).isSome = (files' path).isSome)
    (hnot : ∀ path, ¬OpenedByLoader files base routeData path) :
    loadPayloadDeltas files (some base) routeData =
      loadPayloadDeltas files' (some base) routeData := by
  unfold loadPayloadDeltas
  cases hpath : resolvePayloadPath routeData (some base) with
  | none => rfl
  | some path =>
    dsimp only
    cases hfile : files path with
    | some file => exact absurd ⟨hpath, file, by rw [hfile]; rfl⟩ (hnot path)
    | none =>
      have hnone : files' path = none := by
        rw [← Option.isNone_iff_eq_none, ← Option.not_isSome, ← hexists path, hfile]
        rfl
      rw [hnone]

/-- Whatever the validator or the loader opens lies inside the base directory
and is a safetensors file by its name. -/
def OpensOnlyInside (files : FileSystem) (base : String) (limit : ℕ) (routeData : Manifest) :
    Prop :=
  ∀ path, OpenedByValidator files base limit routeData path ∨
      OpenedByLoader files base routeData path →
    Inside (ofString base) (ofString path) ∧ IsSafetensors (ofString path)

/-- **Where payload URIs lead.**  The files opened for a manifest stay inside the
base directory and are safetensors files exactly when its URI is tame, or there
is no file where it leads. -/
theorem opensOnlyInside_iff (files : FileSystem) (base : String) (limit : ℕ)
    (routeData : Manifest) :
    OpensOnlyInside files base limit routeData ↔
      ∀ block, routeData.payload = some block → block.uri ≠ "" →
        (files (payloadPath base block.uri).str).isSome = true → Tame base block.uri := by
  have hread : ∀ uri, ofString (payloadPath base uri).str = payloadPath base uri := fun uri =>
    ofString_str (wellFormed_payloadPath base uri)
  constructor
  · intro honly block hblock huri hfile
    obtain ⟨file, hfile⟩ := Option.isSome_iff_exists.mp hfile
    have hopened : OpenedByLoader files base routeData (payloadPath base block.uri).str :=
      ⟨resolvePayloadPath_eq_some.mpr ⟨block, hblock, huri, rfl⟩, file, by rw [hfile]; rfl⟩
    have hinside := honly _ (Or.inr hopened)
    rw [hread] at hinside
    exact tame_iff.mpr hinside
  · rintro htame path hopened
    -- either of them has found a file at the resolved path
    have hfound : resolvePayloadPath routeData (some base) = some path ∧
        (files path).isSome = true := by
      rcases hopened with ⟨hpath, file, hexists, -⟩ | ⟨hpath, file, hopen⟩
      · exact ⟨hpath, by rw [checkExists_eq_ok hexists]; rfl⟩
      · refine ⟨hpath, ?_⟩
        cases hfile : files path with
        | none =>
          rw [hfile] at hopen
          cases hopen
        | some _ => rfl
    obtain ⟨hpath, hfile⟩ := hfound
    obtain ⟨block, hblock, huri, rfl⟩ := resolvePayloadPath_eq_some.mp hpath
    rw [hread]
    exact tame_iff.mp (htame block hblock huri hfile)

end Opened

/-- A URI with `..` climbs out of the base directory, and the file is opened. -/
theorem not_opensOnlyInside_climb :
    let routeData := { Demo.digested "" with
      payload := some ⟨"file:../../etc/passwd", some ""⟩ }
    let files : FileSystem := fun _ => some ⟨.ok 10, .ok "", .error "header"⟩
    routeData.acceptedBySchema = true ∧
      ¬OpensOnlyInside files "/srv/payloads" 2147483648 routeData := by
  intro routeData files
  refine ⟨by decide, fun honly => ?_⟩
  have hpath : resolvePayloadPath routeData (some "/srv/payloads") =
      some "/srv/payloads/../../etc/passwd" := by
    decide +kernel
  obtain ⟨⟨-, rest, -, -, hparts⟩, -⟩ := honly _ (Or.inr ⟨hpath, _, rfl⟩)
  have hnorm : (ofString "/srv/payloads/../../etc/passwd").normpath.parts = ["etc", "passwd"] := by
    decide +kernel
  have hbase : (ofString "/srv/payloads").normpath.parts = ["srv", "payloads"] := by
    decide +kernel
  rw [hnorm, hbase] at hparts
  simp at hparts
