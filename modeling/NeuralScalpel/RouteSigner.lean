/-
Signing route manifests.

A signature is the HMAC of the canonical text of a manifest without its
signature block; `verify` computes it again from the block it finds.

* `canonicalize_eq_iff` — what is signed is the value of every other field;
* `verify_eq_ok_iff` — when a manifest passes;
* `sign_binds_manifest` — a signature made under a key id that is not empty
  survives the way through a file and stands for exactly one manifest;
* `verify_empty_key_id` — `verify` takes an empty key id for a missing one, which
  `sign` does not.

The HMAC, the interpreter's `str` and the JSON reader and writer of files are
parameters.
-/
import NeuralScalpel.FailurePolicy
import NeuralScalpel.JsonCanonical

open JsonText JsonValue

/-- A manifest in memory: string keys at every depth, each of them once. -/
structure RouteData (φ : Type) where
  fields : Dict String (JsonValue φ)
  distinct : DistinctFields fields.entries

/-- The signer and the keys it knows. -/
structure RouteSigner where
  secretKeys : Dict String String

namespace RouteSigner

variable {φ : Type}

theorem RouteData.ext {m m' : RouteData φ} (h : m.fields = m'.fields) : m = m' := by
  cases m
  cases m'
  subst h
  rfl

/-- The characters `compare_digest` takes in a string. -/
def isAscii (s : String) : Bool := s.toList.all fun c => c.toNat < 128

/-- `hmac.compare_digest(expected, provided)`. -/
def compareDigest (expected : String) : JsonValue φ → Except PyError Bool
  | .str provided =>
    if isAscii expected && isAscii provided then .ok (expected == provided)
    else .error (.external "TypeError: comparing strings with non-ASCII characters")
  | _ => .error (.external "TypeError: unsupported operand types(s) or combination of types")

/-! ### The signer -/

section

variable (floats : FloatText φ) (hmac : String → String → String)
  (display : JsonValue φ → String) (signer : RouteSigner)

/-- The text that is signed: the manifest without its signature block. -/
def canonicalize (routeData : RouteData φ) : String :=
  canonical floats (.obj (routeData.fields.erase "signature").entries)

def signatureBlock (keyId signature : String) : JsonValue φ :=
  .obj [("algorithm", .str "hmac-sha256"), ("key_id", .str keyId), ("value", .str signature)]

theorem distinctKeys_signatureBlock (keyId signature : String) :
    DistinctKeys (signatureBlock keyId signature : JsonValue φ) := by
  refine ⟨?_, trivial, trivial, trivial, trivial⟩
  show ["algorithm", "key_id", "value"].Nodup
  decide

/-- `route_data[key] = value`. -/
def setField (routeData : RouteData φ) (key : String) (value : JsonValue φ)
    (hvalue : DistinctKeys value) : RouteData φ where
  fields := routeData.fields.set key value
  distinct := by
    rw [distinctFields_iff]
    intro e he
    have hget := Dict.mem_entries_iff.mp he
    rw [Dict.get?_set] at hget
    by_cases hk : e.1 = key
    · rw [if_pos hk] at hget
      exact Option.some.inj hget ▸ hvalue
    · rw [if_neg hk] at hget
      exact distinctFields_iff.mp routeData.distinct e (Dict.mem_entries_iff.mpr hget)

theorem get?_setField_self (routeData : RouteData φ) (key : String) {value : JsonValue φ}
    (hvalue : DistinctKeys value) :
    (setField routeData key value hvalue).fields.get? key = some value :=
  Dict.get?_set_self _ _ _

/-- `sign`: the manifest with the signature block written into it. -/
def sign (routeData : RouteData φ) (keyId : String) : Except PyError (RouteData φ) :=
  match signer.secretKeys.get? keyId with
  | none => .error (.valueError ("Signing key '" ++ keyId ++ "' not found."))
  | some secret =>
    let signature := hmac secret (canonicalize floats routeData)
    .ok (setField routeData "signature" (signatureBlock keyId signature)
      (distinctKeys_signatureBlock keyId signature))

/-- The secret a signature block names. -/
def findSecret (keyId : JsonValue φ) : Except PyError String :=
  -- `not key_id` comes first, so that the empty string is never looked up
  let unknown := .error (.valueError ("Unknown signing key_id: " ++ display keyId))
  if !truthy floats.value keyId then unknown
  else
    match keyId with
    | .str k =>
      match signer.secretKeys.get? k with
      | some secret => .ok secret
      | none => unknown
    | .arr _ => .error (.external "TypeError: unhashable type: 'list'")
    | .obj _ => .error (.external "TypeError: unhashable type: 'dict'")
    | _ => unknown

def verify (routeData : RouteData φ) : Except PyError Unit := do
  let sigBlock := (routeData.fields.get? "signature").getD .null
  -- an empty block counts as a missing one
  Effect.require (truthy floats.value sigBlock) (.valueError "Missing signature block.")
  let algorithm ← getFieldD "algorithm" .null sigBlock
  let keyId ← getFieldD "key_id" .null sigBlock
  let providedSignature ← getFieldD "value" .null sigBlock
  Effect.require (isStr "hmac-sha256" algorithm)
    (.valueError ("Unsupported signature algorithm: " ++ display algorithm))
  let secret ← findSecret floats display signer keyId
  let expectedSignature := hmac secret (canonicalize floats routeData)
  let equal ← compareDigest expectedSignature providedSignature
  Effect.require equal (.valueError "Cryptographic signature verification failed: Hash mismatch.")

end

/-! ### What is signed -/

section

variable {floats : FloatText φ} {hmac : String → String → String}
  {display : JsonValue φ → String} {signer : RouteSigner}

/-- The manifests agree on every field but the signature. -/
def AgreeBeyondSignature (m m' : RouteData φ) : Prop :=
  ∀ key, key ≠ "signature" → Option.Rel Same (m.fields.get? key) (m'.fields.get? key)

/-- `m'` carries the signature block of `m`. -/
def CarriesSignature (m m' : RouteData φ) : Prop :=
  Option.Rel Same (m.fields.get? "signature") (m'.fields.get? "signature")

theorem distinctKeys_erase (m : RouteData φ) (key : String) :
    DistinctKeys (.obj (m.fields.erase key).entries) := by
  refine ⟨(m.fields.erase key).nodup, distinctFields_iff.mpr fun e he => ?_⟩
  exact distinctFields_iff.mp m.distinct e (List.mem_of_mem_filter he)

variable (floats) in
/-- What is signed is the value of every field but the signature. -/
theorem canonicalize_eq_iff {m m' : RouteData φ} :
    canonicalize floats m = canonicalize floats m' ↔ AgreeBeyondSignature m m' := by
  rw [canonicalize, canonicalize, canonical_eq_iff (distinctKeys_erase m _)
    (distinctKeys_erase m' _), same_obj_iff (Dict.nodup _) (Dict.nodup _)]
  constructor
  · intro h key hkey
    have hrel : Option.Rel Same ((m.fields.erase "signature").get? key)
        ((m'.fields.erase "signature").get? key) := h key
    rwa [Dict.get?_erase, Dict.get?_erase, if_neg hkey, if_neg hkey] at hrel
  · intro h key
    show Option.Rel Same ((m.fields.erase "signature").get? key)
      ((m'.fields.erase "signature").get? key)
    rw [Dict.get?_erase, Dict.get?_erase]
    by_cases hkey : key = "signature"
    -- neither has a signature any more
    · rw [if_pos hkey, if_pos hkey]
      exact .none
    · rw [if_neg hkey, if_neg hkey]
      exact h key hkey

theorem same_of_get? {m : RouteData φ} {key : String} {value : JsonValue φ}
    (h : m.fields.get? key = some value) : Same value value :=
  same_refl (distinctFields_iff.mp m.distinct _ (Dict.mem_entries_iff.mpr h))

theorem agreeBeyondSignature_setField (m : RouteData φ) {value : JsonValue φ}
    (hvalue : DistinctKeys value) :
    AgreeBeyondSignature (setField m "signature" value hvalue) m := by
  intro key hkey
  show Option.Rel Same ((m.fields.set "signature" value).get? key) _
  rw [Dict.get?_set_of_ne hkey]
  cases hget : m.fields.get? key with
  | none => exact .none
  | some value => exact .some (same_of_get? hget)

/-! ### Signing -/

variable (floats hmac) in
theorem sign_eq_ok {m : RouteData φ} {keyId secret : String}
    (h : signer.secretKeys.get? keyId = some secret) :
    sign floats hmac signer m keyId =
      .ok (setField m "signature" (signatureBlock keyId (hmac secret (canonicalize floats m)))
        (distinctKeys_signatureBlock _ _)) := by
  rw [sign, h]

/-- Writing a value where it already is changes nothing. -/
theorem setEntries_setEntries {key : String} {value : JsonValue φ} :
    ∀ entries : List (String × JsonValue φ),
      Dict.setEntries key value (Dict.setEntries key value entries) =
        Dict.setEntries key value entries := by
  intro entries
  induction entries with
  | nil => rw [Dict.setEntries, Dict.setEntries, if_pos rfl]
  | cons e rest ih =>
    rw [Dict.setEntries]
    by_cases h : e.1 = key
    · rw [if_pos h, Dict.setEntries, if_pos rfl]
    · rw [if_neg h, Dict.setEntries, if_neg h, ih]

/-- Signing again with the same key leaves the manifest as it is. -/
theorem sign_sign {m signed : RouteData φ} {keyId : String}
    (h : sign floats hmac signer m keyId = .ok signed) :
    sign floats hmac signer signed keyId = .ok signed := by
  cases hsecret : signer.secretKeys.get? keyId with
  | none =>
    rw [sign, hsecret] at h
    cases h
  | some secret =>
    rw [sign_eq_ok floats hmac hsecret] at h
    cases h
    rw [sign_eq_ok floats hmac hsecret]
    -- the second signature is over the same text
    have htext := (canonicalize_eq_iff floats).mpr (agreeBeyondSignature_setField m
      (distinctKeys_signatureBlock keyId (hmac secret (canonicalize floats m))))
    refine congrArg Except.ok (RouteData.ext (Dict.ext ?_))
    show Dict.setEntries _ (signatureBlock keyId (hmac secret (canonicalize floats _))) _ = _
    rw [htext]
    exact setEntries_setEntries _

/-! ### Verifying -/

theorem findSecret_eq_ok {keyId : JsonValue φ} {secret : String} :
    findSecret floats display signer keyId = .ok secret ↔
      ∃ k, keyId = .str k ∧ k ≠ "" ∧ signer.secretKeys.get? k = some secret := by
  -- a value that is no string raises, whether or not it counts as true
  have hraise : ∀ {truth : Bool} {e e' : PyError},
      (if truth then Except.error e else Except.error e') ≠ Except.ok secret := by
    intro truth e e'
    cases truth <;> simp
  unfold findSecret
  cases keyId with
  | str k =>
    by_cases hk : k = ""
    · simp [truthy, hk]
    · cases hget : signer.secretKeys.get? k <;> simp [truthy, hk, hget]
  | _ =>
    refine iff_of_false hraise ?_
    rintro ⟨k, hk, -⟩
    cases hk

theorem compareDigest_eq_ok_true {expected : String} {provided : JsonValue φ}
    (hexpected : isAscii expected = true) :
    compareDigest expected provided = .ok true ↔ provided = .str expected := by
  cases provided with
  | str s =>
    rw [compareDigest, hexpected, Bool.true_and, JsonValue.str.injEq]
    cases hs : isAscii s with
    | true =>
      rw [if_pos rfl, Except.ok.injEq, beq_iff_eq]
      exact eq_comm
    | false =>
      rw [if_neg Bool.false_ne_true]
      refine iff_of_false (fun h => by cases h) fun h => ?_
      rw [h, hexpected] at hs
      cases hs
  | _ => exact iff_of_false (fun h => by cases h) (fun h => by cases h)

theorem lookup_of_getFieldD {block : List (String × JsonValue φ)} {key s : String}
    (h : getFieldD key .null (.obj block) = .ok (.str s)) : block.lookup key = some (.str s) := by
  obtain ⟨fields, hfields, hfield⟩ := getFieldD_eq_ok.mp h
  cases hfields
  cases hlookup : block.lookup key with
  | none =>
    rw [hlookup] at hfield
    cases hfield
  | some value =>
    rw [hlookup] at hfield
    exact congrArg some hfield

/-- A manifest passes when its signature block names a key the signer has and
holds the digest of the rest. -/
theorem verify_eq_ok_iff {m : RouteData φ} (hascii : ∀ secret text, isAscii (hmac secret text)) :
    verify floats hmac display signer m = .ok () ↔
      ∃ block keyId secret, m.fields.get? "signature" = some (.obj block) ∧
        block.lookup "algorithm" = some (.str "hmac-sha256") ∧
        block.lookup "key_id" = some (.str keyId) ∧ keyId ≠ "" ∧
        signer.secretKeys.get? keyId = some secret ∧
        block.lookup "value" = some (.str (hmac secret (canonicalize floats m))) := by
  unfold verify
  simp only [Effect.bind_eq_ok, Effect.require_eq_ok, findSecret_eq_ok]
  constructor
  · rintro ⟨_, htruthy, algorithm, halgorithm, keyId, hkeyId, provided, hprovided, _, hstr,
      secret, ⟨k, rfl, hk, hsecret⟩, equal, hequal, hpass⟩
    cases hget : m.fields.get? "signature" with
    | none =>
      rw [hget] at htruthy
      cases htruthy
    | some sigBlock =>
      rw [hget, Option.getD_some] at halgorithm hkeyId hprovided
      cases sigBlock with
      | obj block =>
        subst hpass
        rw [compareDigest_eq_ok_true (hascii _ _)] at hequal
        subst hequal
        rw [isStr_iff] at hstr
        subst hstr
        exact ⟨block, k, secret, rfl, lookup_of_getFieldD halgorithm, lookup_of_getFieldD hkeyId,
          hk, hsecret, lookup_of_getFieldD hprovided⟩
      | _ => cases halgorithm
  · rintro ⟨block, keyId, secret, hblock, halgorithm, hkeyId, hne, hsecret, hvalue⟩
    have hget : ∀ {key : String} {value : JsonValue φ}, block.lookup key = some value →
        getFieldD key .null ((m.fields.get? "signature").getD .null) = .ok value := by
      intro key value h
      rw [hblock, Option.getD_some, getFieldD_eq_ok]
      exact ⟨block, rfl, by rw [h, Option.getD_some]⟩
    have htruthy : truthy floats.value ((m.fields.get? "signature").getD .null) = true := by
      rw [hblock, Option.getD_some]
      cases block with
      -- an empty object has no algorithm
      | nil => cases halgorithm
      | cons e rest => rfl
    exact ⟨(), htruthy, _, hget halgorithm, _, hget hkeyId, _, hget hvalue, (),
      isStr_iff.mpr rfl, secret, ⟨keyId, rfl, hne, hsecret⟩, true,
      (compareDigest_eq_ok_true (hascii _ _)).mpr rfl, rfl⟩

/-- What the block of a signature is, up to the order of its fields. -/
theorem lookup_of_same_signatureBlock {keyId signature : String} {value : JsonValue φ}
    (h : Same (signatureBlock keyId signature) value) :
    ∃ block, value = .obj block ∧ block.lookup "algorithm" = some (.str "hmac-sha256") ∧
      block.lookup "key_id" = some (.str keyId) ∧
      block.lookup "value" = some (.str signature) := by
  rw [signatureBlock, Same] at h
  obtain ⟨block, rfl, -, hfields⟩ := h
  rw [sameFields_iff] at hfields
  have hstr : ∀ {key s : String},
      (key, JsonValue.str s) ∈ [("algorithm", JsonValue.str (φ := φ) "hmac-sha256"),
        ("key_id", .str keyId), ("value", .str signature)] →
      block.lookup key = some (.str s) := by
    intro key s hmem
    obtain ⟨v, hlookup, hv⟩ := hfields _ hmem
    rw [Same] at hv
    rw [hlookup, hv]
  exact ⟨block, rfl, hstr (by simp), hstr (by simp), hstr (by simp)⟩

/-- A manifest with the signature made for `m` passes when it agrees with `m`
and the key id is not empty. -/
theorem verify_carried_iff {m m' signed : RouteData φ} {keyId : String}
    (hinj : ∀ secret, Function.Injective (hmac secret))
    (hascii : ∀ secret text, isAscii (hmac secret text))
    (hsign : sign floats hmac signer m keyId = .ok signed) (hcarries : CarriesSignature signed m') :
    verify floats hmac display signer m' = .ok () ↔ keyId ≠ "" ∧ AgreeBeyondSignature m' m := by
  cases hsecret : signer.secretKeys.get? keyId with
  | none =>
    rw [sign, hsecret] at hsign
    cases hsign
  | some secret =>
    rw [sign_eq_ok floats hmac hsecret] at hsign
    cases hsign
    rw [CarriesSignature, get?_setField_self] at hcarries
    obtain ⟨value, hvalue, hsame⟩ : ∃ value, m'.fields.get? "signature" = some value ∧
        Same (signatureBlock keyId (hmac secret (canonicalize floats m))) value := by
      cases hget : m'.fields.get? "signature" with
      | none =>
        rw [hget] at hcarries
        cases hcarries
      | some value =>
        rw [hget] at hcarries
        cases hcarries with
        | some h => exact ⟨value, rfl, h⟩
    obtain ⟨block, rfl, halgorithm, hkeyId, hdigest⟩ := lookup_of_same_signatureBlock hsame
    rw [verify_eq_ok_iff hascii, ← canonicalize_eq_iff floats]
    constructor
    -- one block, so one key, one secret, and one digest of both texts
    · rintro ⟨block', k, secret', hblock', -, hk, hne, hsecret', hdigest'⟩
      rw [hvalue] at hblock'
      cases hblock'
      rw [hkeyId] at hk
      cases hk
      rw [hsecret] at hsecret'
      cases hsecret'
      rw [hdigest] at hdigest'
      exact ⟨hne, (hinj secret (JsonValue.str.inj (Option.some.inj hdigest'))).symm⟩
    · rintro ⟨hne, htext⟩
      refine ⟨block, keyId, secret, hvalue, halgorithm, hkeyId, hne, hsecret, ?_⟩
      rw [hdigest, htext]

/-- A signature made under a key id that is not empty survives the way through
a file, and stands for one manifest only. -/
theorem sign_binds_manifest {dump : RouteData φ → String}
    {load : String → Except PyError (RouteData φ)} (hload : ∀ m, load (dump m) = .ok m)
    (hinj : ∀ secret, Function.Injective (hmac secret))
    (hascii : ∀ secret text, isAscii (hmac secret text)) (m : RouteData φ) {keyId : String}
    (hknown : signer.secretKeys.contains keyId = true) :
    ∃ signed, sign floats hmac signer m keyId = .ok signed ∧
      sign floats hmac signer signed keyId = .ok signed ∧
      (keyId ≠ "" →
        (load (dump signed) >>= verify floats hmac display signer) = .ok () ∧
        ∀ m', CarriesSignature signed m' →
          (verify floats hmac display signer m' = .ok () ↔ AgreeBeyondSignature m' m)) := by
  obtain ⟨secret, hsecret⟩ := Dict.contains_iff.mp hknown
  have hdistinct := distinctKeys_signatureBlock (φ := φ) keyId (hmac secret (canonicalize floats m))
  have hsign := sign_eq_ok floats hmac (m := m) hsecret
  refine ⟨_, hsign, sign_sign hsign, fun hne => ⟨?_, fun m' hcarries => ?_⟩⟩
  · rw [hload]
    refine (verify_carried_iff hinj hascii hsign ?_).mpr
      ⟨hne, agreeBeyondSignature_setField m hdistinct⟩
    rw [CarriesSignature, get?_setField_self]
    exact .some (same_refl hdistinct)
  · rw [verify_carried_iff hinj hascii hsign hcarries]
    exact and_iff_right hne

end

/-! ### A signer at work -/

def exampleManifest : RouteData Empty where
  fields := Dict.ofWrites [("route_id", .str "r1"),
    ("layers", .arr [.obj [("name", .str "a"), ("rank", .int 8)]])]
  distinct := ⟨trivial, ⟨⟨by decide, trivial, trivial, trivial⟩, trivial⟩, trivial⟩

/-- The text the example is signed over. -/
def exampleText : String :=
  "\x7b\"layers\":[\x7b\"name\":\"a\",\"rank\":8\x7d],\"route_id\":\"r1\"\x7d"

example : canonicalize noFloats exampleManifest = exampleText := by decide +kernel

/-- The digest of the example's text, known under every secret. -/
def exampleHmac (_secret text : String) : String :=
  digestKnown exampleText "8dc00d61de5ee2b7e2f37e2c4f882057ad41962bb9d535adc33efdebadb852f0" text

theorem exampleHmac_injective (secret : String) : Function.Injective (exampleHmac secret) :=
  digestKnown_injective (by decide)

theorem isAscii_exampleHmac (secret text : String) : isAscii (exampleHmac secret text) := by
  unfold exampleHmac digestKnown
  by_cases h : text = exampleText
  · rw [if_pos h]
    decide
  · rw [if_neg h, isAscii, String.toList_ofList, List.all_eq_true]
    intro c hc
    rw [List.eq_of_mem_replicate hc]
    decide

/-- The text of a manifest in a file. -/
def dumps {φ : Type} (floats : FloatText φ) (m : RouteData φ) : String :=
  String.ofList (write floats spaced (.obj m.fields.entries))

open Classical in
/-- A reader of files: the manifest that was written, if one was. -/
noncomputable def loads {φ : Type} (floats : FloatText φ) (text : String) :
    Except PyError (RouteData φ) :=
  if h : ∃ m, dumps floats m = text then .ok h.choose
  else .error (.external "JSONDecodeError: Expecting value")

theorem loads_dumps {φ : Type} (floats : FloatText φ) (m : RouteData φ) :
    loads floats (dumps floats m) = .ok m := by
  have hex : ∃ m', dumps floats m' = dumps floats m := ⟨m, rfl⟩
  rw [loads, dif_pos hex]
  have htext := write_injective floats spaced (String.ofList_injective hex.choose_spec)
  exact congrArg Except.ok (RouteData.ext (Dict.ext (JsonValue.obj.inj htext)))

def exampleSigner : RouteSigner := ⟨Dict.ofWrites [("prod-key-1", "secret")]⟩

theorem sign_binds_manifest_example :
    ∃ signed, sign noFloats exampleHmac exampleSigner exampleManifest "prod-key-1" = .ok signed ∧
      sign noFloats exampleHmac exampleSigner signed "prod-key-1" = .ok signed ∧
      ("prod-key-1" ≠ "" →
        (loads noFloats (dumps noFloats signed) >>=
          verify noFloats exampleHmac (fun _ => "") exampleSigner) = .ok () ∧
        ∀ m', CarriesSignature signed m' →
          (verify noFloats exampleHmac (fun _ => "") exampleSigner m' = .ok () ↔
            AgreeBeyondSignature m' exampleManifest)) :=
  sign_binds_manifest (loads_dumps noFloats) exampleHmac_injective isAscii_exampleHmac
    exampleManifest (by decide)

/-- A signer that knows the empty key id signs with it, and then takes its own
signature for one without a key. -/
theorem verify_empty_key_id :
    ∃ signed, sign noFloats exampleHmac ⟨Dict.ofWrites [("", "secret")]⟩ exampleManifest "" =
        .ok signed ∧
      CarriesSignature signed signed ∧ AgreeBeyondSignature signed exampleManifest ∧
      verify noFloats exampleHmac (fun _ => "") ⟨Dict.ofWrites [("", "secret")]⟩ signed =
        .error (.valueError "Unknown signing key_id: ") := by
  have hblock := distinctKeys_signatureBlock (φ := Empty) ""
    (exampleHmac "secret" (canonicalize noFloats exampleManifest))
  refine ⟨setField exampleManifest "signature" _ hblock, rfl, ?_,
    agreeBeyondSignature_setField _ hblock, ?_⟩
  · rw [CarriesSignature, get?_setField_self]
    exact .some (same_refl hblock)
  · rw [verify, get?_setField_self]
    rfl

end RouteSigner
