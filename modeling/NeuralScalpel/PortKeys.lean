/-
The keys that `port_lora` writes.

Which keys are written, where streaming ends and how many pairs have been
counted by then is told by the keys, the filter and the shapes of the tensors.

* `keyPass` — a loop over keys, with nothing projected: what it has handled and
  written when it ends, and whether it raised;
* `streamed` — the streaming loop, with a fault from outside;
* `keyPass_eq_of_streams`, `streamed_eq_of_streamed` — a loop that does with each key
  what its branch says ends as its pass does;
* `Follows` — an adapter with which the loops do so;
* `mem_keys_portRun` — the keys of the final map.
-/
import NeuralScalpel.PortRun

section PortKeys

variable {R S : Type} [CommRing R] [Field S] [LinearOrder S]

/-! ### Passes -/

section Passes

variable (config : PortConfig S) (adapter : Adapter S) (tensor : String → ShapedMatrix R)

/-- What happens to a key; only the structural adapter matches keys. -/
def branchAt (start : ℕ) (seen : List String) (key : String) : Pairing.Branch :=
  if adapter.kind = .llama3ToQwen2 then (adapterPairing adapter).branch start seen key else .alone

/-- The keys written for a key. -/
def keysFor (key : String) : Pairing.Branch → List String
  | .alone => [key]
  | .waits => []
  | .meets => [loraKey (baseKey key) .a, loraKey (baseKey key) .b]

/-- Handling a key raises: the product of its pair is not defined, or an alpha is
divided by zero. -/
def Raises (key : String) : Pairing.Branch → Prop
  | .alone => DividesByZero config key
  | .waits => False
  | .meets => ¬Composable (pairOf tensor (baseKey key)) ∨ DividesByZero config key

instance (key : String) : Decidable (DividesByZero config key) :=
  inferInstanceAs (Decidable (_ ∧ _))

instance (key : String) (branch : Pairing.Branch) : Decidable (Raises config tensor key branch) :=
  match branch with
  | .alone => inferInstanceAs (Decidable (DividesByZero config key))
  | .waits => inferInstanceAs (Decidable False)
  | .meets => inferInstanceAs (Decidable (_ ∨ _))

/-- How a loop ends: the keys it has handled, the latest first, the keys it has
written, and whether it raised. -/
structure Pass where
  seen : List String
  written : List String
  raised : Bool

/-- A loop over `keys` after the keys `seen`. -/
def keyPass (start : ℕ) : List String → List String → Pass
  | seen, [] => ⟨seen, [], false⟩
  | seen, key :: keys =>
    let branch := branchAt adapter start seen key
    if Raises config tensor key branch then ⟨key :: seen, [], true⟩
    else
      let rest := keyPass start (key :: seen) keys
      { rest with written := keysFor key branch ++ rest.written }

/-- The streaming loop, ended from outside where a fault says so. -/
def streamed (fault : Option StreamFault) (keys : List String) : Pass :=
  match fault with
  | none => keyPass config adapter tensor 0 [] (includedKeys config keys)
  | some fault =>
    let first := keyPass config adapter tensor 0 [] (includedKeys config (keys.take fault.layers))
    if first.raised then first
    else
      match fault.writes with
      | none => { first with raised := true }
      | some made =>
        let last := keyPass config adapter tensor 0 first.seen
          (includedKeys config ((keys.drop fault.layers).take 1))
        ⟨last.seen, first.written ++ last.written.take made, true⟩

/-- The pairs counted before the last loop. -/
def countedPairs (fault : Option StreamFault) (keys : List String) : ℕ :=
  let first := streamed config adapter tensor fault keys
  if first.raised then (adapterPairing adapter).pairs first.seen else 0

/-- The keys that both loops write. -/
def portedKeys (fault : Option StreamFault) (keys : List String) : List String :=
  let first := streamed config adapter tensor fault keys
  if first.raised then
    first.written ++ (keyPass config adapter tensor (countedPairs config adapter tensor fault keys)
      [] (includedKeys config keys)).written
  else first.written

/-- What is written for a key that does not raise. -/
def WritesAs (start : ℕ) (seen : List String) (key : String)
    (writes : List (String × ShapedMatrix R)) : Prop :=
  ¬Raises config tensor key (branchAt adapter start seen key) ∧
    writes.map Prod.fst = keysFor key (branchAt adapter start seen key)

def RaisesAs (start : ℕ) (seen : List String) (key : String) : Prop :=
  Raises config tensor key (branchAt adapter start seen key)

variable {config adapter tensor} {start : ℕ} {seen keys ended : List String}
  {out : List (String × ShapedMatrix R) × Bool}

/-- A loop that does with each key what its branch says ends as its pass does. -/
theorem keyPass_eq_of_streams (h : Streams (WritesAs config adapter tensor start)
    (RaisesAs config adapter tensor start) seen keys out ended) :
    keyPass config adapter tensor start seen keys = ⟨ended, out.1.map Prod.fst, out.2⟩ := by
  induction h with
  | done => rfl
  | raised h =>
    unfold keyPass
    exact if_pos h
  | next h hrest ih =>
    unfold keyPass
    dsimp only
    rw [if_neg h.1, ih, List.map_append, h.2]

theorem streamed_eq_of_streamed {fault : Option StreamFault}
    (h : Streamed (WritesAs config adapter tensor 0) (RaisesAs config adapter tensor 0) config keys
      fault out ended) :
    streamed config adapter tensor fault keys = ⟨ended, out.1.map Prod.fst, out.2⟩ := by
  cases h with
  | whole h => exact keyPass_eq_of_streams h
  | raised h =>
    unfold streamed
    dsimp only
    rw [keyPass_eq_of_streams h]
    rfl
  | between h =>
    unfold streamed
    dsimp only
    rw [keyPass_eq_of_streams h]
    rfl
  | within h hlast =>
    unfold streamed
    dsimp only
    rw [keyPass_eq_of_streams h, keyPass_eq_of_streams hlast, List.map_append, List.map_take]
    rfl

end Passes

/-! ### Loops -/

section Loops

variable [MulActionWithZero S R] {torch : Torch R S} {config : PortConfig S}
  {adapter : Adapter S} {tensor : String → ShapedMatrix R}

/-- Writing raises exactly if an alpha is divided by zero. -/
theorem wp_layerWrites {key : String} {projected : Projected R} (hsome : projected ≠ .nothing)
    {st : AdapterState R S} :
    Effect.wp (Effect.ofExcept (layerWrites config key projected))
      (fun writes st' => st' = st ∧ ¬DividesByZero config key ∧
        writes.map Prod.fst = (projected.entries key).map Prod.fst)
      (fun _ st' => st' = st ∧ DividesByZero config key) st := by
  rw [Effect.wp_ofExcept]
  constructor
  · exact fun writes hwrites =>
      ⟨rfl, not_divides_of_layerWrites hsome hwrites, layerWrites_keys key projected writes hwrites⟩
  · intro e herror
    by_contra hnot
    have hdivides : ¬DividesByZero config key := fun h => hnot ⟨rfl, h⟩
    rw [layerWrites_of_not_divides hdivides] at herror
    cases herror

/-- The adapter keeps `Inv` along a stream, and each key is written, or raises, as
its branch says. -/
abbrev Follows (torch : Torch R S) (config : PortConfig S) (adapter : Adapter S)
    (tensor : String → ShapedMatrix R) (start : ℕ) (stream : List String)
    (Inv : List String → AdapterState R S → Prop) : Prop :=
  Steps torch adapter (layerWrites config) tensor (WritesAs config adapter tensor start)
    (RaisesAs config adapter tensor start) stream Inv

/-! ### The adapters -/

section Adapters

variable {start : ℕ} {stream leftover : List String}

omit [Field S] [LinearOrder S] in
theorem branchAt_structural (hkind : adapter.kind = .llama3ToQwen2) (start : ℕ)
    (seen : List String) (key : String) :
    branchAt adapter start seen key = (adapterPairing adapter).branch start seen key :=
  if_pos hkind

omit [Field S] [LinearOrder S] in
theorem branchAt_plain (hkind : adapter.kind ≠ .llama3ToQwen2) (start : ℕ) (seen : List String)
    (key : String) : branchAt adapter start seen key = .alone := if_neg hkind

variable (leftover) in
theorem follows_structural (hkind : adapter.kind = .llama3ToQwen2) (hnodup : stream.Nodup)
    (hbases : DistinctBases adapter stream)
    (hstale : ∀ k ∈ leftover, (adapterPairing adapter).Stale stream.reverse k) :
    Follows torch config adapter tensor start stream (Holds adapter start tensor leftover) where
  step := by
    intro seen key st hstream hinv
    obtain ⟨rest, hrest⟩ := hstream
    have hsplit : stream.reverse = rest.reverse ++ key :: seen := by
      rw [← hrest, List.reverse_append, List.reverse_reverse]
    have hbases' : DistinctBases adapter stream.reverse := fun k hk k' hk' =>
      hbases k (List.mem_reverse.mp hk) k' (List.mem_reverse.mp hk')
    obtain ⟨st', hholds, hrun⟩ :=
      hinv.step torch hsplit (List.nodup_reverse.mpr hnodup) hstale hbases'
    rw [← projectTensor_structural hkind] at hrun
    unfold surgery WritesAs RaisesAs
    rw [Effect.wp_bind, Effect.wp_congr hrun, branchAt_structural hkind]
    have hwritten : ∀ {projected : Projected R}, projected ≠ .nothing →
        Effect.wp (Effect.ofExcept (layerWrites config key projected))
          (fun writes st'' => Holds adapter start tensor leftover (key :: seen) st'' ∧
            ¬DividesByZero config key ∧
            writes.map Prod.fst = (projected.entries key).map Prod.fst)
          (fun _ st'' => Holds adapter start tensor leftover (key :: seen) st'' ∧
            DividesByZero config key) st' := fun hsome =>
      (wp_layerWrites hsome).mono (fun _ _ ⟨heq, hwrites⟩ => ⟨heq ▸ hholds, hwrites⟩)
        fun _ _ ⟨heq, hdivides⟩ => ⟨heq ▸ hholds, hdivides⟩
    rw [Effect.wp_ofExcept]
    rcases (adapterPairing adapter).branch start seen key with _ | _ | _
    · refine ⟨fun projected hout => ?_, fun e hout => by cases hout⟩
      cases hout
      exact hwritten (by simp)
    · refine ⟨fun projected hout => ?_, fun e hout => by cases hout⟩
      cases hout
      exact ⟨hholds, not_false, rfl⟩
    · by_cases hcomposable : Composable (pairOf tensor (baseKey key))
      · refine ⟨fun projected hout => ?_, fun e hout => ?_⟩
        · rw [outcome, if_pos hcomposable] at hout
          cases hout
          exact (hwritten (by simp)).mono
            (fun _ _ ⟨h, hnot, hwrites⟩ =>
              ⟨h, fun hraises => hraises.elim (· hcomposable) hnot, hwrites⟩)
            fun _ _ ⟨h, hdivides⟩ => ⟨h, .inr hdivides⟩
        · rw [outcome, if_pos hcomposable] at hout
          cases hout
      · refine ⟨fun projected hout => ?_, fun e _ => ⟨hholds, .inl hcomposable⟩⟩
        rw [outcome, if_neg hcomposable] at hout
        cases hout

theorem follows_plain (hkind : adapter.kind ≠ .llama3ToQwen2) :
    Follows torch config adapter tensor start stream (fun _ _ => True) where
  step := by
    intro seen key st _ _
    obtain ⟨st', hrun, -⟩ := projectTensor_plain torch hkind key (tensor key) st
    unfold surgery WritesAs RaisesAs
    have hpure : projectTensor torch adapter key (tensor key) st =
        (pure (.tensor (plainTensor torch adapter st.draws (tensor key))) :
          AdapterM R S (Projected R)) st' := hrun
    rw [Effect.wp_bind, Effect.wp_congr hpure, Effect.wp_pure, branchAt_plain hkind]
    exact (wp_layerWrites (by simp)).mono (fun _ _ h => ⟨trivial, h.2⟩) fun _ _ h => ⟨trivial, h.2⟩

/-- After a part of the stream the adapter can start over. -/
theorem follows_restart {seen : List String} {st : AdapterState R S}
    (hkind : adapter.kind = .llama3ToQwen2) (hnodup : stream.Nodup)
    (hbases : DistinctBases adapter stream) (hseen : seen.reverse <+: stream)
    (h : Holds adapter 0 tensor [] seen st) :
    ∃ Inv : List String → AdapterState R S → Prop, Inv [] st ∧
      Follows torch config adapter tensor ((adapterPairing adapter).pairs seen) stream Inv := by
  have hfollows : Follows torch config adapter tensor st.piecewiseCounter stream
      (Holds adapter st.piecewiseCounter tensor ((adapterPairing adapter).waiting 0 seen)) := by
    refine follows_structural _ hkind hnodup hbases fun k hk => ?_
    obtain ⟨rest, hrest⟩ := hseen
    have hsplit : stream.reverse = rest.reverse ++ seen := by
      rw [← hrest, List.reverse_append, List.reverse_reverse]
    have hnodup' := List.nodup_reverse.mpr hnodup
    rw [hsplit] at hnodup' ⊢
    exact Pairing.stale_of_mem_waiting hnodup' hk
  -- the counter decides as the number of pairs would
  have hbranch : ∀ seen' key, branchAt adapter st.piecewiseCounter seen' key =
      branchAt adapter ((adapterPairing adapter).pairs seen) seen' key := by
    intro seen' key
    rw [branchAt_structural hkind, branchAt_structural hkind]
    unfold Pairing.branch
    rw [h.takes_restart]
  refine ⟨_, h.restart, ⟨fun hstream hinv => ?_⟩⟩
  unfold WritesAs RaisesAs
  rw [← hbranch]
  exact hfollows.step hstream hinv

end Adapters

/-! ### A run -/

section Run

variable {fault : Option StreamFault} {keys : List String} {st : AdapterState R S}
  {written : Dict String (ShapedMatrix R)}

theorem keys_of_follows {Inv : List String → AdapterState R S → Prop}
    (h : Follows torch config adapter tensor 0 (includedKeys config keys) Inv)
    (hinv : Inv [] .init)
    (hrestart : ∀ {seen : List String} {st : AdapterState R S},
      seen.reverse <+: includedKeys config keys → Inv seen st →
      ∃ Inv' : List String → AdapterState R S → Prop, Inv' [] st ∧
        Follows torch config adapter tensor ((adapterPairing adapter).pairs seen)
          (includedKeys config keys) Inv')
    (hrun : portRun torch config adapter (layerWrites config) tensor fault keys .init =
      .ok written st) (key : String) :
    key ∈ written.keys ↔ key ∈ portedKeys config adapter tensor fault keys := by
  have hfirst := h.wp_streaming fault hinv
  unfold Effect.wp at hfirst
  rcases hstream : streaming torch config adapter (layerWrites config) tensor fault keys .init with
    ⟨out, st₁⟩ | ⟨e, st₁⟩
  · rw [hstream] at hfirst
    obtain ⟨ended, hran, hinv₁⟩ := hfirst
    have hended := streamed_eq_of_streamed hran
    obtain ⟨again, rfl, hload, hnone⟩ := portRun_eq_ok hstream hrun
    rw [Dict.mem_keys_ofWrites, List.map_append]
    unfold portedKeys countedPairs
    rw [hended]
    dsimp only
    by_cases hflag : out.2 = true
    · obtain ⟨Inv', hinv', h'⟩ := hrestart hran.begins hinv₁
      have hwhole : ([] : List String).reverse ++ includedKeys config keys <+:
          includedKeys config keys := List.prefix_rfl
      have hsecond := h'.wp_loadAll hwhole hinv'
      unfold Effect.wp at hsecond
      rw [hload hflag] at hsecond
      obtain ⟨_, hran'⟩ := hsecond
      rw [if_pos hflag, if_pos hflag, keyPass_eq_of_streams hran']
    · rw [if_neg hflag, hnone (Bool.eq_false_iff.mpr hflag), List.map_nil, List.append_nil]
  · rw [hstream] at hfirst
    exact hfirst.elim

/-- **The keys of the final map.**  Whatever goes wrong while streaming, the keys
written are those of the passes. -/
theorem mem_keys_portRun (hnodup : keys.Nodup)
    (hbases : DistinctBases adapter (includedKeys config keys))
    (hrun : portRun torch config adapter (layerWrites config) tensor fault keys .init =
      .ok written st) {key : String} :
    key ∈ written.keys ↔ key ∈ portedKeys config adapter tensor fault keys := by
  by_cases hkind : adapter.kind = .llama3ToQwen2
  · have hincluded : (includedKeys config keys).Nodup := hnodup.filter _
    exact keys_of_follows
      (follows_structural [] hkind hincluded hbases fun _ hk => absurd hk List.not_mem_nil)
      Holds.init (fun hseen hholds => follows_restart hkind hincluded hbases hseen hholds) hrun key
  · exact keys_of_follows (follows_plain hkind) trivial
      (fun _ _ => ⟨_, trivial, follows_plain hkind⟩) hrun key

variable (torch fault) in
/-- Streaming returns, and the pairs it has counted decide as its pass says. -/
theorem streaming_returns (hnodup : keys.Nodup)
    (hbases : DistinctBases adapter (includedKeys config keys)) :
    ∃ out st₁, streaming torch config adapter (layerWrites config) tensor fault keys .init =
        .ok out st₁ ∧
      ∀ stream key, matchedAt adapter (if out.2 then st₁.piecewiseCounter else 0) stream key =
        matchedAt adapter (countedPairs config adapter tensor fault keys) stream key := by
  have hreturns : ∀ {Inv : List String → AdapterState R S → Prop},
      Follows torch config adapter tensor 0 (includedKeys config keys) Inv → Inv [] .init →
      ∃ out st₁, streaming torch config adapter (layerWrites config) tensor fault keys .init =
        .ok out st₁ ∧ out.2 = (streamed config adapter tensor fault keys).raised ∧
        Inv (streamed config adapter tensor fault keys).seen st₁ := by
    intro Inv h hinv
    have hfirst := h.wp_streaming fault hinv
    unfold Effect.wp at hfirst
    rcases hstream : streaming torch config adapter (layerWrites config) tensor fault keys .init
      with ⟨out, st₁⟩ | ⟨e, st₁⟩
    · rw [hstream] at hfirst
      obtain ⟨ended, hran, hinv₁⟩ := hfirst
      rw [streamed_eq_of_streamed hran]
      exact ⟨out, st₁, rfl, rfl, hinv₁⟩
    · rw [hstream] at hfirst
      exact hfirst.elim
  by_cases hkind : adapter.kind = .llama3ToQwen2
  · obtain ⟨out, st₁, hstream, hraised, hholds⟩ := hreturns (follows_structural []
      hkind (hnodup.filter _) hbases fun _ hk => absurd hk List.not_mem_nil) Holds.init
    refine ⟨out, st₁, hstream, fun stream key => ?_⟩
    unfold countedPairs matchedAt
    rw [hraised]
    dsimp only
    split_ifs
    · rw [hholds.takesAt_restart]
    · rfl
  · obtain ⟨out, st₁, hstream, -⟩ := hreturns (follows_plain hkind) trivial
    refine ⟨out, st₁, hstream, fun stream key => ?_⟩
    unfold matchedAt
    rw [decide_eq_false hkind, Bool.false_and, Bool.false_and]

end Run

end Loops

end PortKeys
