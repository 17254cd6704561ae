/-
`port_lora` as a whole: streaming, and the fallback after whatever goes wrong.

The streaming loop ends at the first exception, of the loop itself or from
outside, and keeps what it has written; the fallback then handles all layers
with the same adapter.

* `portRun` — the run, for whatever is written for a projection;
* `Streams`, `Streamed` — what the loops do, key by key;
* `Steps.wp_streaming`, `Steps.wp_loadAll` — with an adapter that keeps an
  invariant they do it;
* `portRun_map` — writing something else changes nothing but the writes;
* `portRun_some_eq`, `portRun_none_eq` — the runs in which nothing goes wrong
  by itself.
-/
import NeuralScalpel.Fallback

section Matched

variable {S : Type}

/-- A key is matched with its partner at its place in a stream, when some number
of pairs has been counted before. -/
def matchedAt (adapter : Adapter S) (count : ℕ) (stream : List String) (key : String) : Bool :=
  decide (adapter.kind = .llama3ToQwen2) &&
    (adapterPairing adapter).takesAt count stream.reverse key

theorem matchedAt_mono {adapter : Adapter S} {m n : ℕ} {stream : List String} {k : String}
    (hle : m ≤ n) (h : matchedAt adapter n stream k = true) :
    matchedAt adapter m stream k = true := by
  unfold matchedAt at h ⊢
  rw [Bool.and_eq_true] at h ⊢
  exact ⟨h.1, Pairing.takesAt_mono hle h.2⟩

end Matched

section PortRun

variable {R S α β : Type} [CommRing R] [Field S] [LinearOrder S] [MulActionWithZero S R]
  (torch : Torch R S) (config : PortConfig S) (adapter : Adapter S)
  (post : String → Projected R → Except PyError (List (String × α)))
  (tensor : String → ShapedMatrix R)

/-! ### The run -/

/-- What both loops do with an included layer. -/
def surgery (key : String) : AdapterM R S (List (String × α)) := do
  let projected ← projectTensor torch adapter key (tensor key)
  Effect.ofExcept (post key projected)

/-- The streaming loop: its writes, and whether it was ended by an exception. -/
def streamLayers : List String → AdapterM R S (List (String × α) × Bool)
  | [] => pure ([], false)
  | key :: keys =>
    if shouldIncludeKey config key then do
      match ← Effect.attempt (surgery torch adapter post tensor key) with
      | .error _ => pure ([], true)
      | .ok writes => do
        let rest ← streamLayers keys
        pure (writes ++ rest.1, rest.2)
    else streamLayers keys

/-- The streaming loop, ended from outside where a fault says so. -/
def streaming (fault : Option StreamFault) (keys : List String) :
    AdapterM R S (List (String × α) × Bool) :=
  match fault with
  | none => streamLayers torch config adapter post tensor keys
  | some fault => do
    let first ← streamLayers torch config adapter post tensor (keys.take fault.layers)
    if first.2 then pure first
    else
      match fault.writes with
      | none => pure (first.1, true)
      | some made => do
        let last ← streamLayers torch config adapter post tensor
          ((keys.drop fault.layers).take 1)
        pure (first.1 ++ last.1.take made, true)

/-- The loop of the fallback. -/
def loadAll : List String → AdapterM R S (List (String × α))
  | [] => pure []
  | key :: keys =>
    if shouldIncludeKey config key then do
      let writes ← surgery torch adapter post tensor key
      let rest ← loadAll keys
      pure (writes ++ rest)
    else loadAll keys

/-- Streaming, and the fallback if it failed. -/
def portWrites (fault : Option StreamFault) (keys : List String) :
    AdapterM R S (List (String × α)) := do
  let streamed ← streaming torch config adapter post tensor fault keys
  let again ← if streamed.2 then loadAll torch config adapter post tensor keys else pure []
  pure (streamed.1 ++ again)

/-- The final map of layers; the last write for a key counts. -/
def portRun (fault : Option StreamFault) (keys : List String) :
    AdapterM R S (Dict String α) :=
  Dict.ofWrites <$> portWrites torch config adapter post tensor fault keys

variable {torch config adapter post tensor}

/-! ### What a loop does -/

section Loops

variable (W : List String → String → List (String × α) → Prop) (E : List String → String → Prop)

/-- What the streaming loop does over `keys` after the keys `seen`, the latest
first, if `W` tells what is written for a key and `E` when one raises: its writes,
whether it raised, and the keys it has seen in the end. -/
inductive Streams : List String → List String → List (String × α) × Bool → List String → Prop
  | done {seen : List String} : Streams seen [] ([], false) seen
  | raised {seen keys : List String} {key : String} (h : E seen key) :
    Streams seen (key :: keys) ([], true) (key :: seen)
  | next {seen keys ended : List String} {key : String} {writes : List (String × α)}
    {rest : List (String × α) × Bool} (h : W seen key writes)
    (hrest : Streams (key :: seen) keys rest ended) :
    Streams seen (key :: keys) (writes ++ rest.1, rest.2) ended

/-- What streaming does when it may be ended from outside. -/
inductive Streamed (config : PortConfig S) (keys : List String) :
    Option StreamFault → List (String × α) × Bool → List String → Prop
  | whole {out : List (String × α) × Bool} {ended : List String}
    (h : Streams W E [] (includedKeys config keys) out ended) : Streamed config keys none out ended
  | raised {fault : StreamFault} {writes : List (String × α)} {ended : List String}
    (h : Streams W E [] (includedKeys config (keys.take fault.layers)) (writes, true) ended) :
    Streamed config keys (some fault) (writes, true) ended
  | between {layers : ℕ} {writes : List (String × α)} {ended : List String}
    (h : Streams W E [] (includedKeys config (keys.take layers)) (writes, false) ended) :
    Streamed config keys (some ⟨layers, none⟩) (writes, true) ended
  | within {layers made : ℕ} {writes : List (String × α)} {seen ended : List String}
    {last : List (String × α) × Bool}
    (h : Streams W E [] (includedKeys config (keys.take layers)) (writes, false) seen)
    (hlast : Streams W E seen (includedKeys config ((keys.drop layers).take 1)) last ended) :
    Streamed config keys (some ⟨layers, some made⟩) (writes ++ last.1.take made, true) ended

variable {W E} {seen keys ended stream : List String} {out : List (String × α) × Bool}

/-- The keys of a stream that a loop handles next. -/
theorem reverse_prefix_cons {key : String} (h : seen.reverse ++ key :: keys <+: stream) :
    (key :: seen).reverse <+: stream ∧ (key :: seen).reverse ++ keys <+: stream := by
  have hsplit : seen.reverse ++ key :: keys = (key :: seen).reverse ++ keys := by
    rw [List.reverse_cons, List.append_assoc]
    rfl
  rw [hsplit] at h
  exact ⟨(List.prefix_append _ _).trans h, h⟩

namespace Streams

theorem begins (h : Streams W E seen keys out ended) (hstream : seen.reverse ++ keys <+: stream) :
    ended.reverse <+: stream := by
  induction h with
  | done => exact (List.prefix_append _ _).trans hstream
  | raised h => exact (reverse_prefix_cons hstream).1
  | next h hrest ih => exact ih (reverse_prefix_cons hstream).2

theorem handled (h : Streams W E seen keys out ended) (hout : out.2 = false) :
    ended = keys.reverse ++ seen := by
  induction h with
  | done => rfl
  | raised h => cases hout
  | next h hrest ih =>
    rw [ih hout, List.reverse_cons, List.append_assoc]
    rfl

theorem made (h : Streams W E seen keys out ended) {entry : String × α} (hentry : entry ∈ out.1) :
    ∃ seen', ∃ key ∈ keys, ∃ writes, W seen' key writes ∧ entry ∈ writes := by
  induction h with
  | done => exact absurd hentry List.not_mem_nil
  | raised h => exact absurd hentry List.not_mem_nil
  | next h hrest ih =>
    rcases List.mem_append.mp hentry with hin | hin
    · exact ⟨_, _, List.mem_cons_self, _, h, hin⟩
    · obtain ⟨seen', key, hkey, writes, hwrites, hin'⟩ := ih hin
      exact ⟨seen', key, List.mem_cons_of_mem _ hkey, writes, hwrites, hin'⟩

/-- A loop that does not raise makes the writes of every key. -/
theorem all (h : Streams W E seen keys out ended) (hout : out.2 = false) {key : String}
    (hkey : key ∈ keys) : ∃ seen' writes, W seen' key writes ∧ writes ⊆ out.1 := by
  induction h with
  | done => exact absurd hkey List.not_mem_nil
  | raised h => cases hout
  | next h hrest ih =>
    rcases List.mem_cons.mp hkey with rfl | hin
    · exact ⟨_, _, h, List.subset_append_left _ _⟩
    · obtain ⟨seen', writes, hwrites, hsub⟩ := ih hout hin
      exact ⟨seen', writes, hwrites, fun e he => List.mem_append_right _ (hsub he)⟩

end Streams

namespace Streamed

variable {fault : Option StreamFault}

theorem take_begins (config : PortConfig S) (keys : List String) (n : ℕ) :
    includedKeys config (keys.take n) <+: includedKeys config keys :=
  (List.take_prefix n keys).filter _

/-- The layers of a stream before the one in which a fault comes, and that one. -/
theorem next_begins {layers : ℕ} {writes : List (String × α)}
    (h : Streams W E [] (includedKeys config (keys.take layers)) (writes, false) seen) :
    seen.reverse ++ includedKeys config ((keys.drop layers).take 1) <+:
      includedKeys config keys := by
  have hsplit : includedKeys config (keys.take layers) ++
      includedKeys config ((keys.drop layers).take 1) =
        includedKeys config (keys.take (layers + 1)) := by
    unfold includedKeys
    rw [List.take_add, List.filter_append]
  rw [h.handled rfl, List.append_nil, List.reverse_reverse, hsplit]
  exact take_begins config keys _

theorem begins (h : Streamed W E config keys fault out ended) :
    ended.reverse <+: includedKeys config keys := by
  cases h with
  | whole h => exact h.begins List.prefix_rfl
  | raised h => exact h.begins (take_begins config keys _)
  | between h => exact h.begins (take_begins config keys _)
  | within h hlast => exact hlast.begins (next_begins h)

theorem made (h : Streamed W E config keys fault out ended) {entry : String × α}
    (hentry : entry ∈ out.1) :
    ∃ seen', ∃ key ∈ includedKeys config keys, ∃ writes, W seen' key writes ∧ entry ∈ writes := by
  have hfirst : ∀ {n : ℕ} {out' : List (String × α) × Bool} {ended' : List String},
      Streams W E [] (includedKeys config (keys.take n)) out' ended' → entry ∈ out'.1 →
      ∃ seen', ∃ key ∈ includedKeys config keys, ∃ writes, W seen' key writes ∧ entry ∈ writes := by
    intro n out' ended' h hin
    obtain ⟨seen', key, hkey, hmade⟩ := h.made hin
    exact ⟨seen', key, (take_begins config keys n).subset hkey, hmade⟩
  cases h with
  | whole h => exact h.made hentry
  | raised h => exact hfirst h hentry
  | between h => exact hfirst h hentry
  | within h hlast =>
    rcases List.mem_append.mp hentry with hin | hin
    · exact hfirst h hin
    · obtain ⟨seen', key, hkey, hmade⟩ := hlast.made (List.mem_of_mem_take hin)
      exact ⟨seen', key, (next_begins h).subset (List.mem_append_right _ hkey), hmade⟩

end Streamed

/-- The adapter keeps `Inv`, of the keys handled last to first, along a stream,
with what `W` and `E` tell of each key. -/
structure Steps (torch : Torch R S) (adapter : Adapter S)
    (post : String → Projected R → Except PyError (List (String × α)))
    (tensor : String → ShapedMatrix R) (W : List String → String → List (String × α) → Prop)
    (E : List String → String → Prop) (stream : List String)
    (Inv : List String → AdapterState R S → Prop) : Prop where
  step : ∀ {seen : List String} {key : String} {st : AdapterState R S},
    (key :: seen).reverse <+: stream → Inv seen st →
    Effect.wp (surgery torch adapter post tensor key)
      (fun writes st' => Inv (key :: seen) st' ∧ W seen key writes)
      (fun _ st' => Inv (key :: seen) st' ∧ E seen key) st

namespace Steps

variable {Inv : List String → AdapterState R S → Prop} {st : AdapterState R S}

theorem wp_streamLayers (h : Steps torch adapter post tensor W E stream Inv) :
    ∀ {keys seen : List String} {st : AdapterState R S},
      seen.reverse ++ includedKeys config keys <+: stream → Inv seen st →
      Effect.wp (streamLayers torch config adapter post tensor keys)
        (fun out st' => ∃ ended, Streams W E seen (includedKeys config keys) out ended ∧
          Inv ended st')
        (fun _ _ => False) st := by
  intro keys
  induction keys with
  | nil => exact fun {seen} _ _ hinv => ⟨seen, .done, hinv⟩
  | cons key keys ih =>
    intro seen st hstream hinv
    unfold streamLayers
    by_cases hkey : shouldIncludeKey config key = true
    · have hincluded : includedKeys config (key :: keys) = key :: includedKeys config keys :=
        List.filter_cons_of_pos hkey
      rw [hincluded] at hstream ⊢
      obtain ⟨hnext, hrest⟩ := reverse_prefix_cons hstream
      rw [if_pos hkey, Effect.wp_bind, Effect.wp_attempt]
      refine (h.step hnext hinv).mono (fun writes st' hstep => ?_) fun _ st' hstep => ?_
      · simp only [Effect.wp_bind]
        refine (ih hrest hstep.1).mono (fun out st'' hout => ?_) fun _ _ hfalse => hfalse
        obtain ⟨ended, hran, hinv'⟩ := hout
        exact ⟨ended, .next hstep.2 hran, hinv'⟩
      · exact ⟨key :: seen, .raised hstep.2, hstep.1⟩
    · have hincluded : includedKeys config (key :: keys) = includedKeys config keys :=
        List.filter_cons_of_neg hkey
      rw [hincluded] at hstream ⊢
      rw [if_neg hkey]
      exact ih hstream hinv

/-- Wherever streaming ends, the invariant holds of the layers handled. -/
theorem wp_streaming {keys : List String}
    (h : Steps torch adapter post tensor W E (includedKeys config keys) Inv)
    (fault : Option StreamFault) (hinv : Inv [] st) :
    Effect.wp (streaming torch config adapter post tensor fault keys)
      (fun out st' => ∃ ended, Streamed W E config keys fault out ended ∧ Inv ended st')
      (fun _ _ => False) st := by
  rcases fault with _ | ⟨layers, fault⟩
  · refine (h.wp_streamLayers List.prefix_rfl hinv).mono (fun out st' hout => ?_)
      fun _ _ hfalse => hfalse
    obtain ⟨ended, hran, hinv'⟩ := hout
    exact ⟨ended, .whole hran, hinv'⟩
  · have hfrom : ([] : List String).reverse ++ includedKeys config (keys.take layers) <+:
        includedKeys config keys := Streamed.take_begins config keys layers
    unfold streaming
    rw [Effect.wp_bind]
    refine (h.wp_streamLayers hfrom hinv).mono
      (fun first st₁ hfirst => ?_) fun _ _ hfalse => hfalse
    obtain ⟨seen, hran, hinv₁⟩ := hfirst
    obtain ⟨writes, flag⟩ := first
    cases flag with
    | true => exact ⟨seen, .raised hran, hinv₁⟩
    | false =>
      cases fault with
      | none => exact ⟨seen, .between hran, hinv₁⟩
      | some made =>
        simp only [Bool.false_eq_true, if_false, Effect.wp_bind]
        refine (h.wp_streamLayers (Streamed.next_begins hran) hinv₁).mono
          (fun last st₂ hlast => ?_) fun _ _ hfalse => hfalse
        obtain ⟨ended, hran', hinv₂⟩ := hlast
        exact ⟨ended, .within hran hran', hinv₂⟩

/-- A fallback that returns is a loop that does not raise. -/
theorem wp_loadAll (h : Steps torch adapter post tensor W E stream Inv) :
    ∀ {keys seen : List String} {st : AdapterState R S},
      seen.reverse ++ includedKeys config keys <+: stream → Inv seen st →
      Effect.wp (loadAll torch config adapter post tensor keys)
        (fun writes _ => ∃ ended, Streams W E seen (includedKeys config keys) (writes, false) ended)
        (fun _ _ => True) st := by
  intro keys
  induction keys with
  | nil => exact fun {seen} _ _ _ => ⟨seen, .done⟩
  | cons key keys ih =>
    intro seen st hstream hinv
    unfold loadAll
    by_cases hkey : shouldIncludeKey config key = true
    · have hincluded : includedKeys config (key :: keys) = key :: includedKeys config keys :=
        List.filter_cons_of_pos hkey
      rw [hincluded] at hstream ⊢
      obtain ⟨hnext, hrest⟩ := reverse_prefix_cons hstream
      rw [if_pos hkey, Effect.wp_bind]
      refine (h.step hnext hinv).mono (fun writes st' hstep => ?_) fun _ _ _ => trivial
      simp only [Effect.wp_bind]
      refine (ih hrest hstep.1).mono (fun rest st'' hout => ?_) fun _ _ _ => trivial
      obtain ⟨ended, hran⟩ := hout
      exact ⟨ended, .next hstep.2 hran⟩
    · have hincluded : includedKeys config (key :: keys) = includedKeys config keys :=
        List.filter_cons_of_neg hkey
      rw [hincluded] at hstream ⊢
      rw [if_neg hkey]
      exact ih hstream hinv

end Steps

end Loops

/-! ### Projections -/

/-- The adapter keeps `Inv`, of the keys handled last to first, along a stream,
and what it returns for a key satisfies `Q`. -/
structure Handles (torch : Torch R S) (adapter : Adapter S) (tensor : String → ShapedMatrix R)
    (stream : List String) (Inv : List String → AdapterState R S → Prop)
    (Q : String → Projected R → Prop) : Prop where
  step : ∀ {seen : List String} {key : String} {st : AdapterState R S},
    (key :: seen).reverse <+: stream → Inv seen st →
    Effect.wp (projectTensor torch adapter key (tensor key))
      (fun projected st' => Inv (key :: seen) st' ∧ Q key projected)
      (fun _ st' => Inv (key :: seen) st') st

/-- A write made for the projection of a key of the stream. -/
def Made (post : String → Projected R → Except PyError (List (String × α)))
    (stream : List String) (Q : String → Projected R → Prop) (entry : String × α) : Prop :=
  ∃ key ∈ stream, ∃ projected written,
    Q key projected ∧ post key projected = .ok written ∧ entry ∈ written

variable (post) in
theorem Handles.steps {stream : List String} {Inv : List String → AdapterState R S → Prop}
    {Q : String → Projected R → Prop} (h : Handles torch adapter tensor stream Inv Q) :
    Steps torch adapter post tensor
      (fun _ key writes => ∃ projected, Q key projected ∧ post key projected = .ok writes)
      (fun _ _ => True) stream Inv where
  step := by
    intro seen key st hstream hinv
    unfold surgery
    rw [Effect.wp_bind]
    refine (h.step hstream hinv).mono (fun projected st' hstep => ?_)
      fun _ _ hstep => ⟨hstep, trivial⟩
    rw [Effect.wp_ofExcept]
    exact ⟨fun writes hwrites => ⟨hstep.1, projected, hstep.2, hwrites⟩,
      fun _ _ => ⟨hstep.1, trivial⟩⟩

/-! ### What each adapter returns -/

section Returns

variable (torch : Torch R S) (adapter : Adapter S) (tensor : String → ShapedMatrix R)

/-- What is returned for a tensor projected on its own. -/
def ownTensor (draw : ℕ) (key : String) : ShapedMatrix R :=
  if adapter.kind = .llama3ToQwen2 then linearTensor adapter key (tensor key)
  else plainTensor torch adapter draw (tensor key)

/-- What is returned for `key`, as far as it is written under `k`. -/
def ProjectedAs (count : ℕ) (stream : List String) (k key : String) (projected : Projected R) :
    Prop :=
  (matchedAt adapter count stream k = false ∧ key = k ∧
    ∃ draw, projected = .tensor (ownTensor torch adapter tensor draw k)) ∨
  (matchedAt adapter count stream k = true ∧ LoraKeyed k ∧ LoraKeyed key ∧
    baseKey key = baseKey k ∧
    projected = .dict (pairEntries torch adapter (baseKey k) (pairOf tensor (baseKey k))))

/-- What is returned for a key of a stream. -/
structure ReturnedFor (count : ℕ) (stream : List String) (key : String)
    (projected : Projected R) : Prop where
  projectedAs : ∀ k ∈ (projected.entries key).map Prod.fst,
    k ∈ stream ∧ ProjectedAs torch adapter tensor count stream k key projected
  written : matchedAt adapter count stream key = false →
    key ∈ (projected.entries key).map Prod.fst

variable {torch adapter tensor} {stream leftover : List String} {start : ℕ}

variable (leftover) in
theorem handles_structural (hkind : adapter.kind = .llama3ToQwen2) (hnodup : stream.Nodup)
    (hbases : DistinctBases adapter stream)
    (hstale : ∀ k ∈ leftover, (adapterPairing adapter).Stale stream.reverse k) :
    Handles torch adapter tensor stream (Holds adapter start tensor leftover)
      (ReturnedFor torch adapter tensor start stream) where
  step := by
    intro seen key st hstream hinv
    obtain ⟨rest, hrest⟩ := hstream
    have hsplit : stream.reverse = rest.reverse ++ key :: seen := by
      rw [← hrest, List.reverse_append, List.reverse_reverse]
    have hnodup' := List.nodup_reverse.mpr hnodup
    have hbases' : DistinctBases adapter stream.reverse := fun k hk k' hk' =>
      hbases k (List.mem_reverse.mp hk) k' (List.mem_reverse.mp hk')
    have hmatched : ∀ k, matchedAt adapter start stream k =
        (adapterPairing adapter).takesAt start stream.reverse k := by
      intro k
      unfold matchedAt
      rw [hkind]
      rfl
    have hproject : projectTensor torch adapter key (tensor key) =
        projectStructural torch adapter key (tensor key) := by
      unfold projectTensor
      rw [hkind]
    obtain ⟨st', hholds, hrun⟩ := hinv.step torch hsplit hnodup' hstale hbases'
    unfold Effect.wp
    rw [hproject, hrun]
    rcases hout : outcome torch adapter tensor key
      ((adapterPairing adapter).branch start seen key) with e | projected
    · exact hholds
    · refine ⟨hholds, ⟨fun k hk => ?_, fun hkey => ?_⟩⟩
      · unfold ProjectedAs
        rw [hmatched]
        obtain ⟨hin, hcase⟩ := outcome_cases hsplit hnodup' hout hk
        refine ⟨List.mem_reverse.mp hin, ?_⟩
        rcases hcase with ⟨hkey, htakes, hp⟩ | ⟨hk, hkey, hbase, htakes, hp⟩
        · refine .inl ⟨htakes, hkey, 0, ?_⟩
          unfold ownTensor
          rw [if_pos hkind]
          exact hp
        · exact .inr ⟨htakes, hk, hkey, hbase, hp⟩
      · -- a key that is not matched is projected on its own
        have hplace : (adapterPairing adapter).takes start seen key = false := by
          rw [hmatched, Pairing.takesAt, hsplit] at hkey
          have hlater : key ∉ rest.reverse := by
            rw [hsplit] at hnodup'
            exact fun hin => (List.nodup_append.mp hnodup').2.2 key hin key List.mem_cons_self rfl
          rw [Pairing.before_append hlater, Pairing.before_cons_self] at hkey
          exact hkey
        rw [Pairing.branch_alone_iff.mpr hplace] at hout
        cases hout
        exact List.mem_cons_self

theorem handles_plain (hkind : adapter.kind ≠ .llama3ToQwen2) :
    Handles torch adapter tensor stream (fun _ (_ : AdapterState R S) => True)
      (ReturnedFor torch adapter tensor start stream) where
  step := by
    intro seen key st hstream _
    obtain ⟨st', hrun, -⟩ := projectTensor_plain torch hkind key (tensor key) st
    unfold Effect.wp
    rw [hrun]
    refine ⟨trivial, ⟨fun k hk => ?_, fun _ => List.mem_cons_self⟩⟩
    obtain rfl : k = key := List.mem_singleton.mp hk
    refine ⟨hstream.subset (List.mem_reverse.mpr List.mem_cons_self), .inl ⟨?_, rfl, st.draws, ?_⟩⟩
    · unfold matchedAt
      rw [decide_eq_false hkind, Bool.false_and]
    · unfold ownTensor
      rw [if_neg hkind]

/-- After a part of the stream the adapter can start over. -/
theorem handles_restart {seen : List String} {st : AdapterState R S}
    (hkind : adapter.kind = .llama3ToQwen2) (hnodup : stream.Nodup)
    (hbases : DistinctBases adapter stream) (hseen : seen.reverse <+: stream)
    (h : Holds adapter 0 tensor [] seen st) :
    ∃ Inv : List String → AdapterState R S → Prop, Inv [] st ∧
      Handles torch adapter tensor stream Inv
        (ReturnedFor torch adapter tensor st.piecewiseCounter stream) := by
  refine ⟨_, h.restart, handles_structural _ hkind hnodup hbases fun k hk => ?_⟩
  obtain ⟨rest, hrest⟩ := hseen
  have hsplit : stream.reverse = rest.reverse ++ seen := by
    rw [← hrest, List.reverse_append, List.reverse_reverse]
  have hnodup' := List.nodup_reverse.mpr hnodup
  rw [hsplit] at hnodup' ⊢
  exact Pairing.stale_of_mem_waiting hnodup' hk

end Returns

/-! ### What a run writes -/

section Written

variable {fault : Option StreamFault} {keys : List String} {st st₁ st' : AdapterState R S}
  {streamed : List (String × α) × Bool} {written : Dict String α}

theorem portRun_eq_ok
    (hstream : streaming torch config adapter post tensor fault keys st = .ok streamed st₁)
    (hrun : portRun torch config adapter post tensor fault keys st = .ok written st') :
    ∃ again, written = .ofWrites (streamed.1 ++ again) ∧
      (streamed.2 = true → loadAll torch config adapter post tensor keys st₁ = .ok again st') ∧
      (streamed.2 = false → again = []) := by
  unfold portRun portWrites at hrun
  obtain ⟨writes, hwrites, rfl⟩ := Effect.run_map_eq_ok.mp hrun
  rw [Effect.run_bind_of_ok hstream] at hwrites
  by_cases hflag : streamed.2 = true
  · rw [if_pos hflag] at hwrites
    obtain ⟨again, st₂, hload, hwrites⟩ := Effect.run_bind_eq_ok.mp hwrites
    cases hwrites
    exact ⟨again, rfl, fun _ => hload, fun hfalse => Bool.noConfusion (hflag.symm.trans hfalse)⟩
  · rw [if_neg hflag] at hwrites
    cases hwrites
    exact ⟨[], by rw [List.append_nil], fun htrue => absurd htrue hflag, fun _ => rfl⟩

/-- A write made for a projection is one for the key it is written under. -/
theorem Made.projectedAs {count : ℕ} {stream : List String}
    (hpost : ∀ key projected writes, post key projected = .ok writes →
      writes.map Prod.fst = (projected.entries key).map Prod.fst)
    {k : String} {v : α}
    (h : Made post stream (ReturnedFor torch adapter tensor count stream) (k, v)) :
    k ∈ stream ∧ ∃ key projected writes,
      ProjectedAs torch adapter tensor count stream k key projected ∧
        post key projected = .ok writes ∧ (k, v) ∈ writes := by
  obtain ⟨key, -, projected, writes, hreturned, hwrites, hin⟩ := h
  have hk : k ∈ (projected.entries key).map Prod.fst := by
    rw [← hpost key projected writes hwrites]
    exact List.mem_map_of_mem hin
  obtain ⟨hmem, hprojected⟩ := hreturned.projectedAs k hk
  exact ⟨hmem, key, projected, writes, hprojected, hwrites, hin⟩

/-- A key of a stream that no loop writes is matched there. -/
theorem matchedAt_of_not_written {count : ℕ} {stream : List String} {again : List (String × α)}
    (hpost : ∀ key projected writes, post key projected = .ok writes →
      writes.map Prod.fst = (projected.entries key).map Prod.fst)
    (hall : ∀ key ∈ stream, ∃ projected writes,
      ReturnedFor torch adapter tensor count stream key projected ∧
        post key projected = .ok writes ∧ writes ⊆ again)
    {k : String} (hmem : k ∈ stream) (hagain : (Dict.ofWrites again).get? k = none) :
    matchedAt adapter count stream k = true := by
  refine Bool.not_eq_false _ |>.mp fun hfalse => ?_
  obtain ⟨projected, writes, hreturned, hwrites, hsub⟩ := hall k hmem
  have hkey := hreturned.written hfalse
  rw [← hpost k projected writes hwrites] at hkey
  obtain ⟨e, he, heq⟩ := List.mem_map.mp hkey
  have hwritten : k ∈ again.map Prod.fst := List.mem_map.mpr ⟨e, hsub he, heq⟩
  exact Dict.get?_ofWrites_ne_none hwritten hagain

theorem projectedAs_of_handles {Inv : List String → AdapterState R S → Prop}
    (hpost : ∀ key projected writes, post key projected = .ok writes →
      writes.map Prod.fst = (projected.entries key).map Prod.fst)
    (h : Handles torch adapter tensor (includedKeys config keys) Inv
      (ReturnedFor torch adapter tensor 0 (includedKeys config keys)))
    (hinv : Inv [] st)
    (hrestart : ∀ {seen : List String} {st : AdapterState R S},
      seen.reverse <+: includedKeys config keys → Inv seen st →
      ∃ Inv' : List String → AdapterState R S → Prop, Inv' [] st ∧
        Handles torch adapter tensor (includedKeys config keys) Inv'
          (ReturnedFor torch adapter tensor st.piecewiseCounter (includedKeys config keys)))
    (hstream : streaming torch config adapter post tensor fault keys st = .ok streamed st₁)
    (hrun : portRun torch config adapter post tensor fault keys st = .ok written st')
    {k : String} {v : α} (hget : written.get? k = some v) :
    k ∈ includedKeys config keys ∧ ∃ key projected writes,
      ProjectedAs torch adapter tensor (if streamed.2 then st₁.piecewiseCounter else 0)
        (includedKeys config keys) k key projected ∧
      post key projected = .ok writes ∧ (k, v) ∈ writes := by
  obtain ⟨again, rfl, hload, hnone⟩ := portRun_eq_ok hstream hrun
  have hfirst := (h.steps post).wp_streaming fault hinv
  unfold Effect.wp at hfirst
  rw [hstream] at hfirst
  obtain ⟨seen, hran, hinv₁⟩ := hfirst
  have hmade : ∀ entry ∈ streamed.1, Made post (includedKeys config keys)
      (ReturnedFor torch adapter tensor 0 (includedKeys config keys)) entry := by
    intro entry hentry
    obtain ⟨_, key, hkey, writes, ⟨projected, hreturned, hwrites⟩, hin⟩ := hran.made hentry
    exact ⟨key, hkey, projected, writes, hreturned, hwrites, hin⟩
  rw [Dict.get?_ofWrites_append] at hget
  by_cases hflag : streamed.2 = true
  · rw [if_pos hflag]
    obtain ⟨Inv', hinv', h'⟩ := hrestart hran.begins hinv₁
    have hwhole : ([] : List String).reverse ++ includedKeys config keys <+:
        includedKeys config keys := List.prefix_rfl
    have hsecond := (h'.steps post).wp_loadAll hwhole hinv'
    unfold Effect.wp at hsecond
    rw [hload hflag] at hsecond
    obtain ⟨_, hran'⟩ := hsecond
    have hmade' : ∀ entry ∈ again, Made post (includedKeys config keys)
        (ReturnedFor torch adapter tensor st₁.piecewiseCounter (includedKeys config keys))
        entry := by
      intro entry hentry
      obtain ⟨_, key, hkey, writes, ⟨projected, hreturned, hwrites⟩, hin⟩ := hran'.made hentry
      exact ⟨key, hkey, projected, writes, hreturned, hwrites, hin⟩
    have hall : ∀ key ∈ includedKeys config keys, ∃ projected writes,
        ReturnedFor torch adapter tensor st₁.piecewiseCounter (includedKeys config keys) key
          projected ∧ post key projected = .ok writes ∧ writes ⊆ again := by
      intro key hkey
      obtain ⟨_, writes, ⟨projected, hreturned, hwrites⟩, hsub⟩ := hran'.all rfl hkey
      exact ⟨projected, writes, hreturned, hwrites, hsub⟩
    rcases hagain : (Dict.ofWrites again).get? k with _ | v'
    · rw [hagain, Option.none_or] at hget
      obtain ⟨hmem, key, projected, writes, hprojected, hwrites, hin⟩ :=
        (hmade _ (Dict.mem_of_get?_ofWrites hget)).projectedAs hpost
      refine ⟨hmem, key, projected, writes, ?_, hwrites, hin⟩
      -- a key the fallback does not write is matched in both loops
      have hmatched := matchedAt_of_not_written hpost hall hmem hagain
      rcases hprojected with ⟨hfalse, -⟩ | ⟨-, hpair⟩
      · rw [matchedAt_mono (Nat.zero_le _) hmatched] at hfalse
        cases hfalse
      · exact .inr ⟨hmatched, hpair⟩
    · rw [hagain, Option.some_or] at hget
      cases hget
      exact (hmade' _ (Dict.mem_of_get?_ofWrites hagain)).projectedAs hpost
  · rw [if_neg hflag]
    have hempty := hnone (Bool.eq_false_iff.mpr hflag)
    subst hempty
    have hstreamed : (Dict.ofWrites streamed.1).get? k = some v := hget
    exact (hmade _ (Dict.mem_of_get?_ofWrites hstreamed)).projectedAs hpost

/-- Whatever goes wrong while streaming, what is in the final map under a key
comes from its own projection or from that of its pair, as its place in the
last loop says. -/
theorem portRun_projectedAs (hnodup : keys.Nodup)
    (hbases : DistinctBases adapter (includedKeys config keys))
    (hpost : ∀ key projected writes, post key projected = .ok writes →
      writes.map Prod.fst = (projected.entries key).map Prod.fst)
    (hstream : streaming torch config adapter post tensor fault keys .init = .ok streamed st₁)
    (hrun : portRun torch config adapter post tensor fault keys .init = .ok written st')
    {k : String} {v : α} (hget : written.get? k = some v) :
    k ∈ includedKeys config keys ∧ ∃ key projected writes,
      ProjectedAs torch adapter tensor (if streamed.2 then st₁.piecewiseCounter else 0)
        (includedKeys config keys) k key projected ∧
      post key projected = .ok writes ∧ (k, v) ∈ writes := by
  by_cases hkind : adapter.kind = .llama3ToQwen2
  · have hincluded : (includedKeys config keys).Nodup := hnodup.filter _
    exact projectedAs_of_handles hpost
      (handles_structural [] hkind hincluded hbases
        fun _ hk => absurd hk List.not_mem_nil)
      Holds.init (fun hseen hholds => handles_restart hkind hincluded hbases hseen hholds)
      hstream hrun hget
  · exact projectedAs_of_handles hpost (handles_plain hkind) trivial
      (fun _ _ => ⟨_, trivial, handles_plain hkind⟩) hstream hrun hget

end Written

/-! ### Other writes -/

section Map

variable (f : String → α → β)

/-- Every write changed by `f`. -/
def mapWrites (writes : List (String × α)) : List (String × β) :=
  writes.map fun e => (e.1, f e.1 e.2)

def mapPost (post : String → Projected R → Except PyError (List (String × α)))
    (key : String) (projected : Projected R) : Except PyError (List (String × β)) :=
  mapWrites f <$> post key projected

variable {f}

theorem surgery_map (key : String) :
    surgery torch adapter (mapPost f post) tensor key =
      mapWrites f <$> surgery torch adapter post tensor key := by
  unfold surgery
  rw [map_bind]
  congr 1
  funext projected
  unfold mapPost
  cases post key projected <;> rfl

theorem streamLayers_map (keys : List String) :
    streamLayers torch config adapter (mapPost f post) tensor keys =
      (fun out => (mapWrites f out.1, out.2)) <$>
        streamLayers torch config adapter post tensor keys := by
  induction keys with
  | nil => rfl
  | cons key keys ih =>
    unfold streamLayers
    by_cases hkey : shouldIncludeKey config key = true
    · rw [if_pos hkey, if_pos hkey, surgery_map, ih, Effect.attempt_map, map_bind,
        bind_map_left]
      congr 1
      funext result
      cases result with
      | error e => rfl
      | ok writes =>
        simp only [Except.map, map_bind, bind_map_left, map_pure, mapWrites, List.map_append]
    · rw [if_neg hkey, if_neg hkey]
      exact ih

theorem loadAll_map (keys : List String) :
    loadAll torch config adapter (mapPost f post) tensor keys =
      mapWrites f <$> loadAll torch config adapter post tensor keys := by
  induction keys with
  | nil => rfl
  | cons key keys ih =>
    unfold loadAll
    by_cases hkey : shouldIncludeKey config key = true
    · rw [if_pos hkey, if_pos hkey, surgery_map, ih]
      simp only [map_bind, bind_map_left, map_pure, mapWrites, List.map_append]
    · rw [if_neg hkey, if_neg hkey]
      exact ih

theorem streaming_map (fault : Option StreamFault) (keys : List String) :
    streaming torch config adapter (mapPost f post) tensor fault keys =
      (fun out => (mapWrites f out.1, out.2)) <$>
        streaming torch config adapter post tensor fault keys := by
  rcases fault with _ | fault
  · exact streamLayers_map keys
  · simp only [streaming, streamLayers_map, map_bind, bind_map_left]
    congr 1
    funext first
    by_cases hflag : first.2 = true
    · rw [if_pos hflag, if_pos hflag]
      rfl
    · rw [if_neg hflag, if_neg hflag]
      rcases fault.writes with _ | made
      · rfl
      · simp only [map_bind, map_pure, mapWrites, List.map_append, List.map_take]

theorem get?_ofWrites_mapWrites (writes : List (String × α)) (k : String) :
    (Dict.ofWrites (mapWrites f writes)).get? k = ((Dict.ofWrites writes).get? k).map (f k) := by
  induction writes using List.reverseRecOn with
  | nil => rfl
  | append_singleton writes e ih =>
    have hlast : mapWrites f (writes ++ [e]) = mapWrites f writes ++ [(e.1, f e.1 e.2)] :=
      List.map_append
    rw [hlast, Dict.ofWrites_append_singleton, Dict.get?_set]
    have hsplit : writes ++ [e] = writes ++ [(e.1, e.2)] := rfl
    rw [hsplit, Dict.ofWrites_append_singleton, Dict.get?_set]
    by_cases hk : k = e.1
    · rw [if_pos hk, if_pos hk, hk]
      rfl
    · rw [if_neg hk, if_neg hk, ih]

theorem portWrites_map (fault : Option StreamFault) (keys : List String) :
    portWrites torch config adapter (mapPost f post) tensor fault keys =
      mapWrites f <$> portWrites torch config adapter post tensor fault keys := by
  unfold portWrites
  rw [streaming_map, map_bind, bind_map_left]
  congr 1
  funext streamed
  by_cases hflag : streamed.2 = true
  · simp only [if_pos hflag, loadAll_map, map_bind, bind_map_left, map_pure, mapWrites,
      List.map_append]
  · simp only [if_neg hflag, map_pure, pure_bind, mapWrites, List.append_nil]

/-- Changing every write changes the final map by as much, and nothing else. -/
theorem portRun_map {fault : Option StreamFault} {keys : List String} {st st' : AdapterState R S}
    {written : Dict String β}
    (hrun : portRun torch config adapter (mapPost f post) tensor fault keys st =
      .ok written st') :
    ∃ plain, portRun torch config adapter post tensor fault keys st = .ok plain st' ∧
      ∀ k, written.get? k = (plain.get? k).map (f k) := by
  unfold portRun at hrun ⊢
  rw [portWrites_map] at hrun
  obtain ⟨mapped, hmapped, rfl⟩ := Effect.run_map_eq_ok.mp hrun
  obtain ⟨writes, hwrites, rfl⟩ := Effect.run_map_eq_ok.mp hmapped
  exact ⟨_, Effect.run_map_eq_ok.mpr ⟨writes, hwrites, rfl⟩, get?_ofWrites_mapWrites writes⟩

end Map

/-! ### Runs in which nothing goes wrong by itself -/

section Clean

variable {fault : StreamFault} {keys : List String} {st st' : AdapterState R S}
  {ws : List (String × ShapedMatrix R)}

/-- The second loop is the loop of a clean run. -/
theorem loadAll_layerWrites (keys : List String) :
    loadAll torch config adapter (layerWrites config) tensor keys =
      portLayers torch config adapter tensor keys := by
  induction keys with
  | nil => rfl
  | cons key keys ih =>
    rw [loadAll, portLayers, ih]
    simp only [surgery, bind_assoc]

theorem streamLayers_of_portLayers (h : portLayers torch config adapter tensor keys st =
    .ok ws st') : streamLayers torch config adapter (layerWrites config) tensor keys st =
      .ok (ws, false) st' := by
  rw [← loadAll_layerWrites] at h
  induction keys generalizing st ws with
  | nil =>
    cases h
    rfl
  | cons key keys ih =>
    unfold loadAll at h
    unfold streamLayers
    by_cases hkey : shouldIncludeKey config key = true
    · rw [if_pos hkey] at h ⊢
      obtain ⟨writes, st₁, hfirst, h⟩ := Effect.run_bind_eq_ok.mp h
      obtain ⟨rest, st₂, hrest, h⟩ := Effect.run_bind_eq_ok.mp h
      cases h
      have hattempt : Effect.attempt (surgery torch adapter (layerWrites config) tensor key) st =
          .ok (.ok writes) st₁ := by rw [Effect.attempt, hfirst]
      rw [Effect.run_bind_of_ok hattempt]
      exact Effect.run_bind_of_ok (ih hrest)
    · rw [if_neg hkey] at h ⊢
      exact ih h

/-- Without a fault the final map is that of the streaming loop. -/
theorem portRun_none_eq (h : portLayers torch config adapter tensor keys st = .ok ws st') :
    portRun torch config adapter (layerWrites config) tensor none keys st =
      .ok (.ofWrites ws) st' := by
  unfold portRun portWrites streaming
  simp only [bind, EStateM.bind, Functor.map, EStateM.map, streamLayers_of_portLayers h,
    Bool.false_eq_true, if_false, pure, EStateM.pure, List.append_nil]

theorem streaming_of_streamUntil {before : List (String × ShapedMatrix R)}
    {st₁ : AdapterState R S}
    (h : streamUntil torch config adapter tensor fault keys st = .ok before st₁) :
    streaming torch config adapter (layerWrites config) tensor (some fault) keys st =
      .ok (before, true) st₁ := by
  unfold streamUntil at h
  unfold streaming
  obtain ⟨writes, st₂, hfirst, h⟩ := Effect.run_bind_eq_ok.mp h
  refine (Effect.run_bind_of_ok (streamLayers_of_portLayers hfirst)).trans ?_
  simp only [Bool.false_eq_true, if_false]
  rcases hmade : fault.writes with _ | made
  · rw [hmade] at h
    cases h
    rfl
  · rw [hmade] at h
    obtain ⟨last, st₃, hlast, h⟩ := Effect.run_bind_eq_ok.mp h
    cases h
    exact Effect.run_bind_of_ok (streamLayers_of_portLayers hlast)

/-- With a fault from outside, it is that of the fallback. -/
theorem portRun_some_eq {before : List (String × ShapedMatrix R)} {st₁ : AdapterState R S}
    (h : streamUntil torch config adapter tensor fault keys st = .ok before st₁) :
    portRun torch config adapter (layerWrites config) tensor (some fault) keys st =
      portFallback torch config adapter tensor fault keys st := by
  unfold portRun portWrites portFallback
  simp only [bind, EStateM.bind, Functor.map, EStateM.map, streaming_of_streamUntil h, h,
    if_true, loadAll_layerWrites]
  rcases portLayers torch config adapter tensor keys st₁ with ⟨ws, st₂⟩ | ⟨e, st₂⟩
  · rfl
  · rfl

end Clean

end PortRun
