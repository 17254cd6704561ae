/-
The structural adapter over a whole stream of tensors.

* `script` — what a pass over a stream returns, read off the pairing of its
  keys instead of a buffer;
* `projectAll_eq` — a pass returns what its script says;
* `script_keys` — the keys written are those that passed alone or met;
* `losesNoPair_iff` — exactly when no pair is lost.
-/
import NeuralScalpel.PairBuffer

/-- What is written for a key when nothing else is done to it. -/
def Projected.entries {R : Type} [Zero R] (key : String) :
    Projected R → List (String × ShapedMatrix R)
  | .nothing => []
  | .tensor t => [(key, t)]
  | .dict entries => entries

section Passes

variable {R S : Type} [CommRing R]

/-- Projects every tensor of a stream and collects what is written; `post` is
what is done with the projection of a key. -/
def projectAll (project : String → ShapedMatrix R → AdapterM R S (Projected R))
    (post : String → Projected R → Except PyError (List (String × ShapedMatrix R)))
    (tensor : String → ShapedMatrix R) :
    List String → AdapterM R S (List (String × ShapedMatrix R))
  | [] => pure []
  | key :: keys => do
    let projected ← project key (tensor key)
    let written ← Effect.ofExcept (post key projected)
    let rest ← projectAll project post tensor keys
    pure (written ++ rest)

variable [Field S] [LinearOrder S] [MulActionWithZero S R] (torch : Torch R S)
  (adapter : Adapter S)
  (post : String → Projected R → Except PyError (List (String × ShapedMatrix R)))
  (start : ℕ) (tensor : String → ShapedMatrix R)

/-- What is written for one key. -/
def scriptStep (seen : List String) (key : String) :
    Except PyError (List (String × ShapedMatrix R)) := do
  let projected ← outcome torch adapter tensor key ((adapterPairing adapter).branch start seen key)
  post key projected

/-- What is written for a stream after the keys `seen`. -/
def script : List String → List String → Except PyError (List (String × ShapedMatrix R))
  | _, [] => .ok []
  | seen, key :: keys => do
    let written ← scriptStep torch adapter post start tensor seen key
    let rest ← script (key :: seen) keys
    .ok (written ++ rest)

variable {torch adapter post start tensor} {leftover : List String}

omit [Field S] [LinearOrder S] [MulActionWithZero S R] in
theorem projectAll_cons_eq_ok {project : String → ShapedMatrix R → AdapterM R S (Projected R)}
    {key : String} {keys : List String} {st st' : AdapterState R S}
    {ws : List (String × ShapedMatrix R)} :
    projectAll project post tensor (key :: keys) st = .ok ws st' ↔
      ∃ projected st₁ written rest, project key (tensor key) st = .ok projected st₁ ∧
        post key projected = .ok written ∧
        projectAll project post tensor keys st₁ = .ok rest st' ∧ ws = written ++ rest := by
  rw [projectAll]
  constructor
  · intro h
    obtain ⟨projected, st₁, hproject, hlater⟩ := Effect.run_bind_eq_ok.mp h
    obtain ⟨written, st₂, hwritten, hlast⟩ := Effect.run_bind_eq_ok.mp hlater
    obtain ⟨rest, st₃, hrest, hreturn⟩ := Effect.run_bind_eq_ok.mp hlast
    obtain ⟨hpost, rfl⟩ := Effect.ofExcept_eq_ok.mp hwritten
    cases hreturn
    exact ⟨projected, st₁, written, rest, hproject, hpost, hrest, rfl⟩
  · rintro ⟨projected, st₁, written, rest, hproject, hpost, hrest, rfl⟩
    rw [Effect.run_bind_of_ok hproject,
      Effect.run_bind_of_ok (Effect.ofExcept_eq_ok.mpr ⟨hpost, rfl⟩)]
    exact Effect.run_bind_of_ok hrest

theorem script_cons_eq_ok {seen keys : List String} {key : String}
    {ws : List (String × ShapedMatrix R)} :
    script torch adapter post start tensor seen (key :: keys) = .ok ws ↔
      ∃ written rest, scriptStep torch adapter post start tensor seen key = .ok written ∧
        script torch adapter post start tensor (key :: seen) keys = .ok rest ∧
        ws = written ++ rest := by
  rw [script, Effect.bind_eq_ok]
  refine exists_congr fun written => ?_
  rw [Effect.bind_eq_ok]
  constructor
  · rintro ⟨hwritten, rest, hrest, heq⟩
    cases heq
    exact ⟨rest, hwritten, hrest, rfl⟩
  · rintro ⟨rest, hwritten, hrest, rfl⟩
    exact ⟨hwritten, rest, hrest, rfl⟩

variable (torch post tensor) in
/-- A pass returns what its script says, and then the adapter holds what the
pairing says. -/
theorem projectAll_eq {project : String → ShapedMatrix R → AdapterM R S (Projected R)}
    (hproject : project = projectStructural torch adapter) {stream : List String}
    (hnodup : stream.Nodup) (hdistinct : DistinctBases adapter stream)
    (hstale : ∀ k ∈ leftover, (adapterPairing adapter).Stale stream k) :
    ∀ {keys seen : List String} {st : AdapterState R S}, stream = keys.reverse ++ seen →
      Holds adapter start tensor leftover seen st →
      ∃ st', projectAll project post tensor keys st =
          Effect.ofExcept (script torch adapter post start tensor seen keys) st' ∧
        ((∃ ws, script torch adapter post start tensor seen keys = .ok ws) →
          Holds adapter start tensor leftover stream st') := by
  subst hproject
  intro keys
  induction keys with
  | nil =>
    intro seen st hstream h
    refine ⟨st, rfl, fun _ => ?_⟩
    rw [hstream]
    exact h
  | cons key keys ih =>
    intro seen st hstream h
    have hsplit : stream = keys.reverse ++ key :: seen := by
      rw [hstream, List.reverse_cons, List.append_assoc]
      rfl
    obtain ⟨st₁, h₁, hrun⟩ := h.step torch hsplit hnodup hstale hdistinct
    obtain ⟨st₂, hrest, hholds⟩ := ih hsplit h₁
    rcases hout : outcome torch adapter tensor key
      ((adapterPairing adapter).branch start seen key) with e | projected
    · refine ⟨st₁, ?_, ?_⟩
      · rw [script, scriptStep]
        simp only [projectAll, bind, EStateM.bind, hrun, hout, Except.bind]
        rfl
      · rintro ⟨ws, hws⟩
        rw [script, scriptStep, hout] at hws
        cases hws
    · rcases hpost : post key projected with e | written
      · refine ⟨st₁, ?_, ?_⟩
        · rw [script, scriptStep]
          simp only [projectAll, bind, EStateM.bind, hrun, hout, Except.bind, Effect.ofExcept,
            pure, EStateM.pure, hpost]
          rfl
        · rintro ⟨ws, hws⟩
          obtain ⟨_, _, hstep, _⟩ := script_cons_eq_ok.mp hws
          rw [scriptStep, hout] at hstep
          exact absurd (hpost.symm.trans hstep) (by simp)
      · have hstep : scriptStep torch adapter post start tensor seen key = .ok written := by
          rw [scriptStep, hout]
          exact hpost
        refine ⟨st₂, ?_, ?_⟩
        · rw [script, hstep]
          simp only [projectAll, bind, EStateM.bind, hrun, hout, Except.bind, Effect.ofExcept,
            pure, EStateM.pure, hpost, hrest]
          rcases script torch adapter post start tensor (key :: seen) keys with e | rest
          · rfl
          · rfl
        · rintro ⟨ws, hws⟩
          obtain ⟨_, rest, _, hscript, _⟩ := script_cons_eq_ok.mp hws
          exact hholds ⟨rest, hscript⟩

/-! ### The keys written -/

/-- The two keys of a base, in the order they came in. -/
theorem perm_pair {key : String} (hkey : LoraKeyed key) :
    [loraKey (baseKey key) .a, loraKey (baseKey key) .b].Perm [key, partnerKey key] := by
  rcases hhalf : keyHalf key with _ | _
  · have hself : loraKey (baseKey key) .a = key := by rw [← hhalf, hkey.2]
    have hother : loraKey (baseKey key) .b = partnerKey key := by
      unfold partnerKey
      rw [hhalf]
      rfl
    rw [hself, hother]
  · have hself : loraKey (baseKey key) .b = key := by rw [← hhalf, hkey.2]
    have hother : loraKey (baseKey key) .a = partnerKey key := by
      unfold partnerKey
      rw [hhalf]
      rfl
    rw [hself, hother]
    exact List.Perm.swap _ _ _

/-- A script returns when each of its steps does. -/
theorem exists_script_iff : ∀ {keys seen : List String},
    (∃ ws, script torch adapter post start tensor seen keys = .ok ws) ↔
      ∀ before key after, keys = before ++ key :: after → ∃ written,
        scriptStep torch adapter post start tensor (before.reverse ++ seen) key = .ok written := by
  intro keys
  induction keys with
  | nil =>
    intro seen
    refine ⟨fun _ before key after h => ?_, fun _ => ⟨[], rfl⟩⟩
    exact absurd h (by simp)
  | cons key keys ih =>
    intro seen
    constructor
    · rintro ⟨ws, hws⟩ before key' after hsplit
      obtain ⟨written, rest, hstep, hscript, -⟩ := script_cons_eq_ok.mp hws
      rcases before with _ | ⟨first, before⟩
      · obtain ⟨rfl, -⟩ := List.cons.inj hsplit
        exact ⟨written, hstep⟩
      · obtain ⟨rfl, hkeys⟩ := List.cons.inj hsplit
        rw [List.reverse_cons, List.append_assoc]
        exact ih.mp ⟨rest, hscript⟩ before key' after hkeys
    · intro h
      obtain ⟨written, hstep⟩ := h [] key keys rfl
      obtain ⟨rest, hscript⟩ := ih.mpr fun before key' after hkeys => by
        obtain ⟨written', hstep'⟩ := h (key :: before) key' after (by rw [hkeys]; rfl)
        rw [List.reverse_cons, List.append_assoc] at hstep'
        exact ⟨written', hstep'⟩
      exact ⟨written ++ rest, script_cons_eq_ok.mpr ⟨written, rest, hstep, hscript, rfl⟩⟩

theorem scriptStep_eq_ok {seen : List String} {key : String}
    {written : List (String × ShapedMatrix R)}
    (h : scriptStep torch adapter post start tensor seen key = .ok written) :
    ∃ projected, outcome torch adapter tensor key
      ((adapterPairing adapter).branch start seen key) = .ok projected ∧
        post key projected = .ok written :=
  Effect.bind_eq_ok.mp h

/-- With each key, the keys that passed alone or met are written. -/
theorem scriptStep_keys
    (hpost : ∀ key projected written, post key projected = .ok written →
      written.map Prod.fst = (projected.entries key).map Prod.fst)
    {seen : List String} {key : String} {written : List (String × ShapedMatrix R)}
    (h : scriptStep torch adapter post start tensor seen key = .ok written) :
    (written.map Prod.fst ++ ((adapterPairing adapter).single start seen ++
      (adapterPairing adapter).paired start seen)).Perm
        ((adapterPairing adapter).single start (key :: seen) ++
          (adapterPairing adapter).paired start (key :: seen)) := by
  obtain ⟨projected, hout, hwritten⟩ := scriptStep_eq_ok h
  rw [hpost key projected written hwritten, Pairing.single_cons, Pairing.paired_cons]
  rcases hb : (adapterPairing adapter).branch start seen key with _ | _ | _ <;> rw [hb] at hout
  · cases hout
    exact List.Perm.refl _
  · cases hout
    exact List.Perm.refl _
  · have hkey := loraKeyed_of_matchable (Pairing.branch_meets_iff.mp hb).2.1
    unfold outcome at hout
    by_cases hcomp : Composable (pairOf tensor (baseKey key))
    · rw [if_pos hcomp] at hout
      cases hout
      refine ((perm_pair hkey).append_right _).trans ?_
      -- the pair moves behind what passed alone
      exact List.perm_append_comm_assoc [key, partnerKey key] _ _
    · rw [if_neg hcomp] at hout
      cases hout

theorem script_keys
    (hpost : ∀ key projected written, post key projected = .ok written →
      written.map Prod.fst = (projected.entries key).map Prod.fst) :
    ∀ {keys seen : List String} {ws : List (String × ShapedMatrix R)},
      script torch adapter post start tensor seen keys = .ok ws →
      (ws.map Prod.fst ++ ((adapterPairing adapter).single start seen ++
        (adapterPairing adapter).paired start seen)).Perm
          ((adapterPairing adapter).single start (keys.reverse ++ seen) ++
            (adapterPairing adapter).paired start (keys.reverse ++ seen)) := by
  intro keys
  induction keys with
  | nil =>
    intro seen ws h
    cases h
    exact List.Perm.refl _
  | cons key keys ih =>
    intro seen ws h
    obtain ⟨written, rest, hstep, hscript, rfl⟩ := script_cons_eq_ok.mp h
    rw [List.map_append, List.reverse_cons, List.append_assoc, List.append_assoc]
    refine List.Perm.trans ?_ (ih hscript)
    refine List.Perm.trans ?_ ((scriptStep_keys hpost hstep).append_left _)
    exact List.perm_append_comm_assoc _ _ _

/-! ### The tensors written -/

theorem mem_script : ∀ {keys seen : List String} {ws : List (String × ShapedMatrix R)},
    script torch adapter post start tensor seen keys = .ok ws → ∀ {entry}, entry ∈ ws →
    ∃ before key after written, keys = before ++ key :: after ∧
      scriptStep torch adapter post start tensor (before.reverse ++ seen) key = .ok written ∧
      entry ∈ written := by
  intro keys
  induction keys with
  | nil =>
    intro seen ws h entry hmem
    cases h
    exact absurd hmem List.not_mem_nil
  | cons key keys ih =>
    intro seen ws h entry hmem
    obtain ⟨written, rest, hstep, hscript, rfl⟩ := script_cons_eq_ok.mp h
    rcases List.mem_append.mp hmem with hmem | hmem
    · exact ⟨[], key, keys, written, rfl, hstep, hmem⟩
    · obtain ⟨before, key', after, written', rfl, hstep', hmem'⟩ := ih hscript hmem
      refine ⟨key :: before, key', after, written', rfl, ?_, hmem'⟩
      rw [List.reverse_cons, List.append_assoc]
      exact hstep'

/-- The decision about a key is made after the keys before it. -/
theorem before_reverse {before after : List String} {key : String}
    (hnodup : (before ++ key :: after).Nodup) :
    Pairing.before (before ++ key :: after).reverse key = before.reverse := by
  have hreverse : (before ++ key :: after).reverse = after.reverse ++ key :: before.reverse := by
    rw [List.reverse_append, List.reverse_cons, List.append_assoc]
    rfl
  have hlater : key ∉ after.reverse := by
    rw [List.mem_reverse]
    exact (List.nodup_cons.mp (List.nodup_append.mp hnodup).2.1).1
  rw [hreverse, Pairing.before_append hlater, Pairing.before_cons_self]

/-- A key is written from its own projection, if it is not matched, and from
that of its pair, if it is. -/
theorem outcome_cases {stream later seen : List String} {key : String}
    (hstream : stream = later ++ key :: seen) (hnodup : stream.Nodup) {projected : Projected R}
    (hout : outcome torch adapter tensor key ((adapterPairing adapter).branch start seen key) =
      .ok projected) {k : String} (hk : k ∈ (projected.entries key).map Prod.fst) :
    k ∈ stream ∧
      ((key = k ∧ (adapterPairing adapter).takesAt start stream k = false ∧
          projected = .tensor (linearTensor adapter k (tensor k))) ∨
        (LoraKeyed k ∧ LoraKeyed key ∧ baseKey key = baseKey k ∧
          (adapterPairing adapter).takesAt start stream k = true ∧
          projected = .dict (pairEntries torch adapter (baseKey k)
            (pairOf tensor (baseKey k))))) := by
  have hin : ∀ k ∈ key :: seen, k ∈ stream := fun k hk =>
    hstream ▸ List.mem_append_right later hk
  rw [hstream] at hnodup
  obtain ⟨-, hseen, hapart⟩ := List.nodup_append.mp hnodup
  have hbefore : ∀ k ∈ key :: seen,
      Pairing.before stream k = Pairing.before (key :: seen) k := by
    intro k hk
    rw [hstream, Pairing.before_append fun hlater => hapart k hlater k hk rfl]
  obtain ⟨hfresh, hold⟩ := List.nodup_cons.mp hseen
  rcases hb : (adapterPairing adapter).branch start seen key with _ | _ | _ <;> rw [hb] at hout
  · cases hout
    obtain rfl : k = key := List.mem_singleton.mp hk
    refine ⟨hin k List.mem_cons_self, .inl ⟨rfl, ?_, rfl⟩⟩
    rw [Pairing.takesAt, hbefore k List.mem_cons_self, Pairing.before_cons_self]
    exact Pairing.branch_alone_iff.mp hb
  · cases hout
    exact absurd hk List.not_mem_nil
  · have hlora : LoraKeyed key := loraKeyed_of_matchable (Pairing.branch_meets_iff.mp hb).2.1
    unfold outcome at hout
    by_cases hcomp : Composable (pairOf tensor (baseKey key))
    · rw [if_pos hcomp] at hout
      cases hout
      rcases List.mem_pair.mp ((perm_pair hlora).subset hk) with rfl | rfl
      · refine ⟨hin k List.mem_cons_self, .inr ⟨hlora, hlora, rfl, ?_, rfl⟩⟩
        rw [Pairing.takesAt, hbefore k List.mem_cons_self, Pairing.before_cons_self]
        exact (Pairing.branch_meets_iff.mp hb).1
      · have hwaiting := Pairing.partner_mem_waiting hfresh hb
        have hmem : partnerKey key ∈ seen := Pairing.mem_of_mem_waiting hwaiting
        refine ⟨hin _ (List.mem_cons_of_mem key hmem),
          .inr ⟨loraKeyed_loraKey hlora.1 _, hlora, hlora.baseKey_partner.symm, ?_, ?_⟩⟩
        · have htakes := Pairing.takesAt_of_mem_waiting hold hwaiting
          rw [Pairing.takesAt, hbefore _ (List.mem_cons_of_mem key hmem),
            Pairing.before_cons_of_ne hlora.partner_ne.symm]
          exact htakes
        · rw [hlora.baseKey_partner]
    · rw [if_neg hcomp] at hout
      cases hout

theorem mem_script_cases {keys : List String} (hnodup : keys.Nodup)
    (hpost : ∀ key projected written, post key projected = .ok written →
      written.map Prod.fst = (projected.entries key).map Prod.fst)
    {ws : List (String × ShapedMatrix R)}
    (h : script torch adapter post start tensor [] keys = .ok ws) {k : String}
    {v : ShapedMatrix R} (hmem : (k, v) ∈ ws) :
    ∃ key projected written, key ∈ keys ∧ post key projected = .ok written ∧
      (k, v) ∈ written ∧
      ((key = k ∧ (adapterPairing adapter).takesAt start keys.reverse k = false ∧
          projected = .tensor (linearTensor adapter k (tensor k))) ∨
        (LoraKeyed k ∧ LoraKeyed key ∧ baseKey key = baseKey k ∧
          (adapterPairing adapter).takesAt start keys.reverse k = true ∧
          projected = .dict (pairEntries torch adapter (baseKey k)
            (pairOf tensor (baseKey k))))) := by
  obtain ⟨before, key, after, written, rfl, hstep, hin⟩ := mem_script h hmem
  rw [List.append_nil] at hstep
  obtain ⟨projected, hout, hwritten⟩ := scriptStep_eq_ok hstep
  have hkey : key ∈ before ++ key :: after := List.mem_append_right _ List.mem_cons_self
  refine ⟨key, projected, written, hkey, hwritten, hin, ?_⟩
  have hkeys : k ∈ (projected.entries key).map Prod.fst := by
    rw [← hpost key projected written hwritten]
    exact List.mem_map_of_mem hin
  have hreverse : (before ++ key :: after).reverse = after.reverse ++ key :: before.reverse := by
    rw [List.reverse_append, List.reverse_cons, List.append_assoc]
    rfl
  exact (outcome_cases hreverse (List.nodup_reverse.mpr hnodup) hout hkeys).2

end Passes

/-! ### Streams of whole pairs -/

/-- The tensors of a LoRA: each base occurs once with each of its two keys, and
the two tensors of a base have one rank. -/
structure PairStream (R : Type) [Zero R] where
  keys : List String
  tensor : String → ShapedMatrix R
  nodup : keys.Nodup
  lora : ∀ key ∈ keys, ∃ base half, PlainBase base ∧ key = loraKey base half
  whole : ∀ base half, loraKey base half ∈ keys → loraKey base half.other ∈ keys
  one_rank : ∀ base half, loraKey base half ∈ keys →
    (tensor (loraKey base .b)).cols = (tensor (loraKey base .a)).rows

/-- The branch of a key at its place in a stream: whether it passes the
piecewise tests, with as many pairs counted as lie completely before it with
both keys passing the tests of modules and layers. -/
def piecewiseAt {S : Type} (adapter : Adapter S) (keys : List String) (key : String) : Bool :=
  takesPiecewise adapter ((adapterPairing adapter).pairs (Pairing.before keys.reverse key)) key

theorem takesAt_eq_piecewiseAt {S : Type} (adapter : Adapter S) (keys : List String)
    (key : String) :
    (adapterPairing adapter).takesAt 0 keys.reverse key = piecewiseAt adapter keys key := by
  unfold Pairing.takesAt piecewiseAt Pairing.takes takesPiecewise
  rw [Nat.zero_add]
  rfl

section Keys

variable {R S : Type} [CommRing R]

theorem PairStream.loraKeyed (stream : PairStream R) {key : String} (h : key ∈ stream.keys) :
    LoraKeyed key := by
  obtain ⟨base, half, hbase, rfl⟩ := stream.lora key h
  exact loraKeyed_loraKey hbase half

theorem PairStream.partner_mem (stream : PairStream R) {key : String} (h : key ∈ stream.keys) :
    partnerKey key ∈ stream.keys := by
  obtain ⟨base, half, hbase, rfl⟩ := stream.lora key h
  rw [partnerKey_loraKey hbase]
  exact stream.whole base half h

theorem PairStream.distinctBases (stream : PairStream R) {adapter : Adapter S} :
    DistinctBases adapter stream.keys.reverse := by
  intro key hkey key' hkey' _ _ _
  exact .inr ⟨stream.loraKeyed (List.mem_reverse.mp hkey),
    stream.loraKeyed (List.mem_reverse.mp hkey')⟩

theorem PairStream.composable (stream : PairStream R) {key : String} (h : key ∈ stream.keys) :
    Composable (pairOf stream.tensor (baseKey key)) := by
  refine stream.one_rank (baseKey key) (keyHalf key) ?_
  rw [(stream.loraKeyed h).2]
  exact h

end Keys

section PairStream

variable {R S : Type} [CommRing R] [Field S] [LinearOrder S] [MulActionWithZero S R]
  (torch : Torch R S) (adapter : Adapter S) (stream : PairStream R)

/-- What `project_tensor` returns for the tensors of the stream. -/
def PairStream.project : AdapterM R S (List (String × ShapedMatrix R)) :=
  projectAll (projectStructural torch adapter)
    (fun key projected => .ok (projected.entries key)) stream.tensor stream.keys

/-- Every key of the stream is returned exactly once, and nothing is left in
the buffer. -/
def LosesNoPair : Prop :=
  ∃ outputs st, stream.project torch adapter .init = .ok outputs st ∧
    (∀ key ∈ stream.keys, (outputs.map Prod.fst).count key = 1) ∧ st.pairBuffer = .empty

theorem project_eq (torch : Torch R S) (adapter : Adapter S) (stream : PairStream R) :
    ∃ outputs st, stream.project torch adapter .init = .ok outputs st ∧
      script torch adapter (fun key projected => .ok (projected.entries key)) 0
        stream.tensor [] stream.keys = .ok outputs ∧
      Holds adapter 0 stream.tensor [] stream.keys.reverse st := by
  have hscript : ∃ ws, script torch adapter (fun key projected => .ok (projected.entries key)) 0
      stream.tensor [] stream.keys = .ok ws := by
    refine exists_script_iff.mpr fun before key after hsplit => ?_
    have hkey : key ∈ stream.keys := hsplit ▸ List.mem_append_right _ List.mem_cons_self
    unfold scriptStep outcome
    rcases (adapterPairing adapter).branch 0 (before.reverse ++ []) key with _ | _ | _
    · exact ⟨_, rfl⟩
    · exact ⟨_, rfl⟩
    · rw [if_pos (stream.composable hkey)]
      exact ⟨_, rfl⟩
  obtain ⟨outputs, hws⟩ := hscript
  obtain ⟨st, hrun, hholds⟩ := projectAll_eq torch
    (fun key projected => .ok (projected.entries key)) stream.tensor rfl
    (List.nodup_reverse.mpr stream.nodup) stream.distinctBases
    (fun _ h => absurd h List.not_mem_nil) (List.append_nil _).symm Holds.init
  refine ⟨outputs, st, ?_, hws, hholds ⟨outputs, hws⟩⟩
  unfold PairStream.project
  rw [hrun, hws]
  rfl

theorem perm_outputs {torch : Torch R S} {adapter : Adapter S} {stream : PairStream R}
    {outputs : List (String × ShapedMatrix R)}
    (h : script torch adapter (fun key projected => .ok (projected.entries key)) 0
      stream.tensor [] stream.keys = .ok outputs) :
    (outputs.map Prod.fst).Perm ((adapterPairing adapter).single 0 stream.keys.reverse ++
      (adapterPairing adapter).paired 0 stream.keys.reverse) := by
  have hkeys := script_keys (fun _ _ _ h => by cases h; rfl) h
  rw [List.append_nil] at hkeys
  have hempty : outputs.map Prod.fst ++ ((adapterPairing adapter).single 0 [] ++
      (adapterPairing adapter).paired 0 []) = outputs.map Prod.fst := List.append_nil _
  rw [hempty] at hkeys
  exact hkeys

theorem losesNoPair_iff_waiting (torch : Torch R S) (adapter : Adapter S)
    (stream : PairStream R) : LosesNoPair torch adapter stream ↔
      (adapterPairing adapter).waiting 0 stream.keys.reverse = [] := by
  have hnodup : stream.keys.reverse.Nodup := List.nodup_reverse.mpr stream.nodup
  obtain ⟨outputs, st, hrun, hscript, hholds⟩ := project_eq torch adapter stream
  -- what is returned and what waits is the stream
  have hperm : (outputs.map Prod.fst ++ (adapterPairing adapter).waiting 0
      stream.keys.reverse).Perm stream.keys :=
    (((perm_outputs hscript).append_right _).trans (Pairing.perm_of_nodup _ hnodup)).trans
      (List.reverse_perm _)
  constructor
  · rintro ⟨outputs', st', hrun', hcount, -⟩
    rw [hrun] at hrun'
    cases hrun'
    refine List.eq_nil_iff_forall_not_mem.mpr fun key hkey => ?_
    have hmem : key ∈ stream.keys := List.mem_reverse.mp (Pairing.mem_of_mem_waiting hkey)
    have htotal := hperm.count_eq key
    rw [List.count_append, hcount key hmem, List.count_eq_one_of_mem stream.nodup hmem] at htotal
    have hpos : 0 < ((adapterPairing adapter).waiting 0 stream.keys.reverse).count key :=
      List.count_pos_iff.mpr hkey
    omega
  · intro hnil
    rw [hnil, List.append_nil] at hperm
    refine ⟨outputs, st, hrun, fun key hkey => ?_, ?_⟩
    · rw [hperm.count_eq key]
      exact List.count_eq_one_of_mem stream.nodup hkey
    · refine Dict.eq_empty_of_get? fun base => ?_
      rcases hget : st.pairBuffer.get? base with _ | pair
      · rfl
      · obtain ⟨half, t, ht⟩ := hholds.some_held base pair hget
        have hheld : heldAt st base half = some t := by
          unfold heldAt
          rw [hget]
          exact ht
        obtain ⟨key, -, -, -, hin | hin⟩ := hholds.of_held base half t hheld
        · rw [hnil] at hin
          exact absurd hin List.not_mem_nil
        · exact absurd hin List.not_mem_nil

/-- A stream loses no pair exactly when both keys of every pair take the same
branch at their places. -/
theorem losesNoPair_iff (torch : Torch R S) (adapter : Adapter S) (stream : PairStream R) :
    LosesNoPair torch adapter stream ↔
      ∀ key ∈ stream.keys, piecewiseAt adapter stream.keys key =
        piecewiseAt adapter stream.keys (partnerKey key) := by
  have hnodup : stream.keys.reverse.Nodup := List.nodup_reverse.mpr stream.nodup
  have hwait : (adapterPairing adapter).waiting 0 stream.keys.reverse = [] ↔
      ∀ key ∈ stream.keys, piecewiseAt adapter stream.keys key = true →
        piecewiseAt adapter stream.keys (partnerKey key) = true := by
    have hwhole : ∀ key ∈ stream.keys.reverse, (adapterPairing adapter).matchable key = true ∧
        (adapterPairing adapter).partner key ∈ stream.keys.reverse := by
      intro key hkey
      have hmem := List.mem_reverse.mp hkey
      exact ⟨matchable_of_loraKeyed adapter (stream.loraKeyed hmem),
        List.mem_reverse.mpr (stream.partner_mem hmem)⟩
    rw [Pairing.waiting_eq_nil_iff hnodup hwhole]
    refine forall_congr' fun key => ?_
    rw [List.mem_reverse, takesAt_eq_piecewiseAt, takesAt_eq_piecewiseAt]
    rfl
  rw [losesNoPair_iff_waiting, hwait]
  constructor
  · intro h key hkey
    rw [Bool.eq_iff_iff]
    refine ⟨h key hkey, fun hpartner => ?_⟩
    have hback := h (partnerKey key) (stream.partner_mem hkey) hpartner
    rwa [(stream.loraKeyed hkey).partner_partner] at hback
  · intro h key hkey htakes
    rw [← h key hkey]
    exact htakes

end PairStream

/-! ### A pair that is split -/

/-- The factors of an update of one entry of an up projection. -/
def upTensor (key : String) : ShapedMatrix ℚ :=
  if keyHalf key = .a then unitFactor 1 2 else unitFactor 3 1

/-- Two up projections, the first tensors before the second ones. -/
def interleavedKeys : List String :=
  [loraKey "layers.0.mlp.up_proj" .a, loraKey "layers.1.mlp.up_proj" .a,
    loraKey "layers.0.mlp.up_proj" .b, loraKey "layers.1.mlp.up_proj" .b]

def interleavedStream : PairStream ℚ where
  keys := interleavedKeys
  tensor := upTensor
  nodup := by decide
  lora := by
    intro key hkey
    simp only [interleavedKeys, List.mem_cons, List.not_mem_nil, or_false] at hkey
    rcases hkey with rfl | rfl | rfl | rfl
    · exact ⟨_, _, by decide, rfl⟩
    · exact ⟨_, _, by decide, rfl⟩
    · exact ⟨_, _, by decide, rfl⟩
    · exact ⟨_, _, by decide, rfl⟩
  whole := by
    intro base half h
    simp only [interleavedKeys, List.mem_cons, List.not_mem_nil, or_false] at h ⊢
    rcases h with h | h | h | h
    · obtain ⟨rfl, rfl⟩ := loraKey_inj h
      exact .inr (.inr (.inl rfl))
    · obtain ⟨rfl, rfl⟩ := loraKey_inj h
      exact .inr (.inr (.inr rfl))
    · obtain ⟨rfl, rfl⟩ := loraKey_inj h
      exact .inl rfl
    · obtain ⟨rfl, rfl⟩ := loraKey_inj h
      exact .inr (.inl rfl)
  one_rank := by
    intro base half h
    simp only [interleavedKeys, List.mem_cons, List.not_mem_nil, or_false] at h
    rcases h with h | h | h | h
    · obtain ⟨rfl, rfl⟩ := loraKey_inj h
      decide
    · obtain ⟨rfl, rfl⟩ := loraKey_inj h
      decide
    · obtain ⟨rfl, rfl⟩ := loraKey_inj h
      decide
    · obtain ⟨rfl, rfl⟩ := loraKey_inj h
      decide

/-- With one piecewise pair allowed, the second pair of the interleaved stream
loses its first tensor to the buffer. -/
theorem interleaved_loses_pair :
    ¬LosesNoPair sampleTorch
      { sampleAdapter "piecewise" none with piecewiseMaxLayers := some 1 } interleavedStream := by
  rw [losesNoPair_iff_waiting]
  decide +kernel
