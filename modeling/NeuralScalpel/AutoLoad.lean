/-
The start-up registry of the serving plugin.

At start-up the plugin fills a registry from the route files of its storage
directory.  It writes a document under the id the document gives, and makes
none of the checks a registration makes.

* `getVllmRegistry`, `registerAll` — the two ways to fill a registry;
* `get?_load` — either way, the last file with an entry for an id decides;
* `sameContents_iff` — the two agree exactly when the last file carrying each
  id passes the checks, and no file passing them has an empty id.
-/
import NeuralScalpel.LayerNames
import NeuralScalpel.RegistryRuns
import Mathlib.Data.List.Induction

namespace RouteDocument

/-- A file of the storage directory: its name, and what opening and parsing it
gives. -/
structure RouteFile where
  name : String
  content : Except PyError Json

/-- Loads one file, without any check. -/
def autoLoad (content : Except PyError Json) : EStateM PyError Registry Unit := do
  let data ← Effect.ofExcept content
  let rid ← Effect.ofExcept (data.getFieldD "route_id" .null)
  if rid.truthy then
    let key ← Effect.ofExcept rid.hashKey
    modify fun registry => registry.store key data

/-- The route files of a directory listing. -/
def routeFiles (listing : List RouteFile) : List RouteFile :=
  listing.filter fun file => file.name.hasSuffix ".scalpel_route"

/-- The registry at start-up; a file that fails to load is passed over. -/
def getVllmRegistry (listing : List RouteFile) : Registry :=
  (routeFiles listing).foldl
    (fun registry file => Effect.after (autoLoad file.content) registry) .empty

/-- A fresh registry with which every route file was registered, failures
ignored. -/
def registerAll (verifier : Verifier) (listing : List RouteFile) : Registry :=
  (routeFiles listing).foldl
    (fun registry file => Effect.after (registerRoute verifier file.content) registry) .empty

/-- The same routes and the same statuses. -/
def SameContents (registry registry' : Registry) : Prop :=
  ∀ key, registry.routes.get? key = registry'.routes.get? key ∧
    registry.statuses.get? key = registry'.statuses.get? key

/-! ### Filling a registry file by file -/

/-- Stores the entry of a file, if it has one. -/
def Registry.storeEntry (registry : Registry) : Option (JsonKey × Json) → Registry
  | some (key, routeData) => registry.store key routeData
  | none => registry

/-- Fills a fresh registry with the entries of the files. -/
def load (entry : RouteFile → Option (JsonKey × Json)) (files : List RouteFile) : Registry :=
  files.foldl (fun registry file => registry.storeEntry (entry file)) .empty

/-- The document an entry has for a key. -/
def entryFor (key : JsonKey) : Option (JsonKey × Json) → Option Json
  | some (key', routeData) => if key' = key then some routeData else none
  | none => none

theorem entryFor_eq_some {key : JsonKey} {entry : Option (JsonKey × Json)} {routeData : Json} :
    entryFor key entry = some routeData ↔ entry = some (key, routeData) := by
  rcases entry with _ | ⟨key', d⟩
  · simp [entryFor]
  · by_cases h : key' = key
    · simp [entryFor, h]
    · simp [entryFor, h]

theorem entryFor_eq_none {key : JsonKey} {entry : Option (JsonKey × Json)} :
    entryFor key entry = none ↔ ∀ routeData, entry ≠ some (key, routeData) := by
  rw [Option.eq_none_iff_forall_ne_some]
  exact forall_congr' fun _ => not_congr entryFor_eq_some

theorem get?_storeEntry (registry : Registry) (entry : Option (JsonKey × Json)) (key : JsonKey) :
    (registry.storeEntry entry).routes.get? key =
      (entryFor key entry).or (registry.routes.get? key) := by
  rcases entry with _ | ⟨key', d⟩
  · rfl
  · show (registry.routes.set key' d).get? key = _
    rw [Dict.get?_set, entryFor]
    by_cases h : key = key'
    · rw [if_pos h, if_pos h.symm, Option.some_or]
    · rw [if_neg h, if_neg (Ne.symm h), Option.none_or]

/-- The last file with an entry for the key decides what is stored there. -/
theorem get?_load (entry : RouteFile → Option (JsonKey × Json)) (files : List RouteFile)
    (key : JsonKey) :
    (load entry files).routes.get? key =
      files.reverse.findSome? fun file => entryFor key (entry file) := by
  induction files using List.reverseRecOn with
  | nil => rfl
  | append_singleton files file ih =>
    rw [load, List.foldl_concat, get?_storeEntry, List.reverse_concat, List.findSome?_cons]
    rcases entryFor key (entry file) with _ | d
    · rw [Option.none_or]
      exact ih
    · rfl

/-- Whatever is stored is in production. -/
theorem status_load (entry : RouteFile → Option (JsonKey × Json)) (files : List RouteFile)
    (key : JsonKey) :
    (load entry files).statuses.get? key =
      ((load entry files).routes.get? key).map fun _ => .production := by
  induction files using List.reverseRecOn with
  | nil => rfl
  | append_singleton files file ih =>
    rw [load, List.foldl_concat]
    show ((load entry files).storeEntry (entry file)).statuses.get? key =
      (((load entry files).storeEntry (entry file)).routes.get? key).map _
    rcases entry file with _ | ⟨key', d⟩
    · exact ih
    · show ((load entry files).statuses.set key' .production).get? key =
        (((load entry files).routes.set key' d).get? key).map _
      rw [Dict.get?_set, Dict.get?_set]
      by_cases h : key = key'
      · rw [if_pos h, if_pos h]
        rfl
      · rw [if_neg h, if_neg h]
        exact ih

theorem sameContents_load {entry entry' : RouteFile → Option (JsonKey × Json)}
    {files : List RouteFile} :
    SameContents (load entry files) (load entry' files) ↔
      ∀ key, (load entry files).routes.get? key = (load entry' files).routes.get? key := by
  refine ⟨fun h key => (h key).1, fun h key => ⟨h key, ?_⟩⟩
  rw [status_load, status_load, h key]

/-- A key is stored iff some file has an entry for it, and the last such file
is the one whose document is found. -/
theorem get?_load_eq_some {entry : RouteFile → Option (JsonKey × Json)} {files : List RouteFile}
    {key : JsonKey} {routeData : Json} :
    (load entry files).routes.get? key = some routeData ↔
      ∃ before file after, files = before ++ file :: after ∧
        entry file = some (key, routeData) ∧
        ∀ later ∈ after, ∀ d, entry later ≠ some (key, d) := by
  rw [get?_load, List.findSome?_eq_some_iff]
  simp only [entryFor_eq_some, entryFor_eq_none]
  constructor
  · rintro ⟨after, file, before, heq, hentry, hlater⟩
    refine ⟨before.reverse, file, after.reverse, ?_, hentry, fun later hmem => ?_⟩
    · have hfiles := congrArg List.reverse heq
      simpa using hfiles
    · exact hlater later (List.mem_reverse.mp hmem)
  · rintro ⟨before, file, after, rfl, hentry, hlater⟩
    refine ⟨after.reverse, file, before.reverse, by simp, hentry, fun later hmem => ?_⟩
    exact hlater later (List.mem_reverse.mp hmem)

theorem get?_load_eq_none {entry : RouteFile → Option (JsonKey × Json)} {files : List RouteFile}
    {key : JsonKey} :
    (load entry files).routes.get? key = none ↔
      ∀ file ∈ files, ∀ d, entry file ≠ some (key, d) := by
  rw [get?_load, List.findSome?_eq_none_iff]
  simp only [entryFor_eq_none, List.mem_reverse]

/-! ### The two ways -/

/-- What the start-up path stores of a file. -/
def loaded (file : RouteFile) : Option (JsonKey × Json) :=
  match file.content with
  | .ok data =>
    match data.getFieldD "route_id" .null with
    | .ok rid => if rid.truthy then rid.hashKey?.map fun key => (key, data) else none
    | .error _ => none
  | .error _ => none

/-- What registering a file stores. -/
def registered (verifier : Verifier) (file : RouteFile) : Option (JsonKey × Json) :=
  (admission verifier file.content).toOption

theorem after_autoLoad (file : RouteFile) (registry : Registry) :
    Effect.after (autoLoad file.content) registry = registry.storeEntry (loaded file) := by
  refine Effect.wp_const_iff (P := fun s => s = registry.storeEntry (loaded file)).mp ?_
  unfold autoLoad loaded
  rcases file.content with e | data
  · simp [Registry.storeEntry]
  · rcases hrid : data.getFieldD "route_id" .null with e | rid
    · simp [hrid, Registry.storeEntry]
    · by_cases htruthy : rid.truthy = true
      · rcases hkey : rid.hashKey? with _ | key <;>
          simp [hrid, htruthy, Json.hashKey, hkey, Registry.storeEntry]
      · simp [hrid, htruthy, Registry.storeEntry]

theorem after_registerRoute (verifier : Verifier) (file : RouteFile) (registry : Registry) :
    Effect.after (registerRoute verifier file.content) registry =
      registry.storeEntry (registered verifier file) := by
  show next verifier registry (.register file.content) = _
  rw [next_register, registered]
  rcases admission verifier file.content with e | ⟨key, routeData⟩ <;> rfl

theorem getVllmRegistry_eq (listing : List RouteFile) :
    getVllmRegistry listing = load loaded (routeFiles listing) := by
  unfold getVllmRegistry load
  congr 1
  funext registry file
  exact after_autoLoad file registry

theorem registerAll_eq (verifier : Verifier) (listing : List RouteFile) :
    registerAll verifier listing = load (registered verifier) (routeFiles listing) := by
  unfold registerAll load
  congr 1
  funext registry file
  exact after_registerRoute verifier file registry

/-! ### When they agree -/

/-- `bool(key)`. -/
def keyTruthy : JsonKey → Bool
  | .null => false
  | .num q => decide (q ≠ 0)
  | .str s => s != ""

/-- A value and its key are truthy together. -/
theorem truthy_of_hashKey? {value : Json} {key : JsonKey} (h : value.hashKey? = some key) :
    value.truthy = keyTruthy key := by
  cases value with
  | bool b =>
    cases h
    cases b <;> simp [Json.truthy, keyTruthy]
  | null => cases h; rfl
  | num q => cases h; rfl
  | str s => cases h; rfl
  | arr elems => cases h
  | obj fields => cases h

theorem getFieldD_of_item {value field default : Json} {key : String}
    (h : value.item key = .ok field) : value.getFieldD key default = .ok field := by
  rw [Json.item_eq_ok] at h
  rw [Json.getFieldD, h]
  rfl

/-- A file that registers also loads, under the same key, unless its id is
empty. -/
theorem loaded_of_registered {verifier : Verifier} {file : RouteFile} {key : JsonKey}
    {routeData : Json} (h : registered verifier file = some (key, routeData)) :
    loaded file = if keyTruthy key then some (key, routeData) else none := by
  have hadm : admission verifier file.content = .ok (key, routeData) := by
    unfold registered at h
    rcases hc : admission verifier file.content with e | entry
    · rw [hc] at h
      cases h
    · rw [hc] at h
      cases h
      rfl
  obtain ⟨hfile, _, hkey⟩ := admission_eq_ok.mp hadm
  unfold routeKey at hkey
  obtain ⟨rid, hrid, hhash⟩ := Effect.bind_eq_ok.mp hkey
  rw [Json.hashKey_eq_ok] at hhash
  unfold loaded
  rw [hfile]
  simp only [getFieldD_of_item hrid, truthy_of_hashKey? hhash, hhash, Option.map_some]

theorem keyTruthy_of_loaded {file : RouteFile} {key : JsonKey} {routeData : Json}
    (h : loaded file = some (key, routeData)) :
    keyTruthy key = true ∧ file.content = .ok routeData := by
  unfold loaded at h
  rcases hc : file.content with e | data
  · rw [hc] at h
    cases h
  · rw [hc] at h
    rcases hrid : data.getFieldD "route_id" .null with e | rid
    · simp [hrid] at h
    · by_cases htruthy : rid.truthy = true
      · rcases hkey : rid.hashKey? with _ | key'
        · simp [hrid, htruthy, hkey] at h
        · simp only [hrid, htruthy, hkey, if_true, Option.map_some, Option.some.injEq,
            Prod.mk.injEq] at h
          obtain ⟨rfl, rfl⟩ := h
          exact ⟨truthy_of_hashKey? hkey ▸ htruthy, rfl⟩
      · simp [hrid, htruthy] at h

/-- The file carries the id: it loads under that key. -/
def Carries (file : RouteFile) (key : JsonKey) : Prop := ∃ data, loaded file = some (key, data)

/-- The file passes every check of a registration, under that key. -/
def Passes (verifier : Verifier) (file : RouteFile) (key : JsonKey) : Prop :=
  ∃ data, registered verifier file = some (key, data)

/-- The last file carrying each id passes the checks of a registration, and a
file that passes them has an id that is not empty. -/
def LastOnesPass (verifier : Verifier) (files : List RouteFile) : Prop :=
  (∀ before file after key, files = before ++ file :: after → Carries file key →
    (∀ later ∈ after, ¬Carries later key) → Passes verifier file key) ∧
  (∀ file ∈ files, ∀ key, Passes verifier file key → keyTruthy key = true)

/-- Files of one content register alike. -/
theorem registered_congr {verifier : Verifier} {file file' : RouteFile}
    (h : file.content = file'.content) : registered verifier file = registered verifier file' := by
  unfold registered
  rw [h]

/-- The start-up registry holds what registering every file would exactly when
the last file carrying each id passes the checks, and no file that passes them
has an empty id. -/
theorem sameContents_iff (verifier : Verifier) (listing : List RouteFile) :
    SameContents (getVllmRegistry listing) (registerAll verifier listing) ↔
      LastOnesPass verifier (routeFiles listing) := by
  rw [getVllmRegistry_eq, registerAll_eq, sameContents_load]
  generalize routeFiles listing = files
  constructor
  · intro hsame
    refine ⟨?_, ?_⟩
    · -- the last carrier is loaded, so its document is registered by some file
      rintro before file after key hfiles ⟨data, hloaded⟩ hlater
      have hget : (load loaded files).routes.get? key = some data :=
        get?_load_eq_some.mpr ⟨before, file, after, hfiles, hloaded,
          fun later hmem d hd => hlater later hmem ⟨d, hd⟩⟩
      rw [hsame key] at hget
      obtain ⟨_, file', _, _, hreg, _⟩ := get?_load_eq_some.mp hget
      have htruthy := (keyTruthy_of_loaded hloaded).1
      have hloaded' := loaded_of_registered hreg
      rw [if_pos htruthy] at hloaded'
      have hcontent : file.content = file'.content := by
        rw [(keyTruthy_of_loaded hloaded).2, (keyTruthy_of_loaded hloaded').2]
      exact ⟨data, (registered_congr hcontent).trans hreg⟩
    · rintro file hmem key ⟨data, hreg⟩
      rcases hget : (load (registered verifier) files).routes.get? key with _ | d
      · exact absurd hreg (get?_load_eq_none.mp hget file hmem data)
      · rw [← hsame key] at hget
        obtain ⟨_, _, _, _, hloaded, _⟩ := get?_load_eq_some.mp hget
        exact (keyTruthy_of_loaded hloaded).1
  · rintro ⟨hlast, hids⟩ key
    rcases hget : (load loaded files).routes.get? key with _ | data
    · -- no file carries the id, so none registers under it
      refine (get?_load_eq_none.mpr fun file hmem d hreg => ?_).symm
      have hloaded := loaded_of_registered hreg
      rw [if_pos (hids file hmem key ⟨d, hreg⟩)] at hloaded
      exact get?_load_eq_none.mp hget file hmem d hloaded
    · obtain ⟨before, file, after, hfiles, hloaded, hlater⟩ := get?_load_eq_some.mp hget
      have hcarries : ∀ later ∈ after, ¬Carries later key := by
        rintro later hmem ⟨d, hd⟩
        exact hlater later hmem d hd
      obtain ⟨d, hreg⟩ := hlast before file after key hfiles ⟨data, hloaded⟩ hcarries
      have hloaded' := loaded_of_registered hreg
      rw [if_pos (keyTruthy_of_loaded hloaded).1, hloaded] at hloaded'
      cases hloaded'
      refine (get?_load_eq_some.mpr ⟨before, file, after, hfiles, hreg, ?_⟩).symm
      intro later hmem d' hreg'
      have hlaterLoaded := loaded_of_registered hreg'
      rw [if_pos (keyTruthy_of_loaded hloaded).1] at hlaterLoaded
      exact hlater later hmem d' hlaterLoaded

/-- An unsigned manifest without a single hash is in production at start-up. -/
theorem unsigned_autoLoaded :
    ¬SameContents (getVllmRegistry [⟨"a.scalpel_route", .ok (.obj [("route_id", .str "r")])⟩])
      (registerAll sampleVerifier
        [⟨"a.scalpel_route", .ok (.obj [("route_id", .str "r")])⟩]) := by
  intro hsame
  have hstatus := (hsame (.str "r")).2
  revert hstatus
  decide +kernel

end RouteDocument
