import Gocoon.CellLayout
import Gocoon.RootSnapshot

/-!
# Reading the params cell of the root contract

`parseParamsCell` reads the record that `encodeParamsCell` writes. Which fields are there
depends on the version in front of them: the stakes came with version 1, two of the price
multipliers with version 2 and the other two, which stand between them, with version 3. The
layout of a snapshot is written down once; the encoder writes it, the parser consumes it, and
a parser that has accepted a cell has found it, up to the length of the amounts.
-/

namespace Gocoon.RootParams

open Gocoon.GoProgram
open Gocoon.CellBuilder
open Gocoon.CellLayout
open Gocoon.RootSnapshot

set_option autoImplicit false

inductive ParamsError where
  | nilCell
  | unexpectedVersion (version : UInt8)
  | field (name : String)
  deriving DecidableEq

/-- The text of the error; a field that cannot be read is followed by the cause. -/
def ParamsError.text : ParamsError → String
  | .nilCell => "root: params cell is nil"
  | .unexpectedVersion version =>
      "root: unexpected params struct version: " ++ toString version.toNat
  | .field name => "root: params: " ++ name

abbrev ParamsM := GoM Slice ParamsError

def readU8 (field : String) : ParamsM UInt8 := do
  let value ← reading (.field field) (·.loadUInt 8)
  pure (UInt8.ofNat value)

def readU32 (field : String) : ParamsM UInt32 := do
  let value ← reading (.field field) (·.loadUInt 32)
  pure (UInt32.ofNat value)

def readBool (field : String) : ParamsM Bool := reading (.field field) (·.loadBoolBit)

/-- The loader of amounts is a parameter, so that the same order of fields also says which
cells have amounts of minimal length. -/
def readCoins (loadCoins : Slice → Option (Nat × Slice)) (field : String) :
    ParamsM (Option Int) := do
  let value ← reading (.field field) loadCoins
  pure (some (value : Int))

def readMaybeRef (field : String) : ParamsM (Option Cell) :=
  reading (.field field) (·.loadMaybeRef)

/-- A field that only some versions have; in the others it keeps its zero value. -/
def readSince {Value : Type} (present : Bool) (zero : Value) (program : ParamsM Value) :
    ParamsM Value :=
  if present then program else pure zero

def readParams (loadCoins : Slice → Option (Nat × Slice)) : ParamsM StateSnapshot := do
  let version ← readU8 "struct_version"
  if 5 < version then fail (.unexpectedVersion version)
  else do
    let paramsVersion ← readU32 "params_version"
    let uniqueID ← readU32 "unique_id"
    let isTest ← readBool "is_test"
    let pricePerToken ← readCoins loadCoins "price_per_token"
    let workerFeePerToken ← readCoins loadCoins "worker_fee_per_token"
    let promptTokensPriceMult ←
      readSince (3 ≤ version) 0 (readU32 "prompt_tokens_price_multiplier")
    let cachedTokensPriceMult ←
      readSince (2 ≤ version) 0 (readU32 "cached_tokens_price_multiplier")
    let completionTokensPriceMult ←
      readSince (3 ≤ version) 0 (readU32 "completion_tokens_price_multiplier")
    let reasoningTokensPriceMult ←
      readSince (2 ≤ version) 0 (readU32 "reasoning_tokens_price_multiplier")
    let proxyDelayBeforeClose ← readU32 "proxy_delay_before_close"
    let clientDelayBeforeClose ← readU32 "client_delay_before_close"
    let minProxyStake ← readSince (1 ≤ version) none (readCoins loadCoins "min_proxy_stake")
    let minClientStake ← readSince (1 ≤ version) none (readCoins loadCoins "min_client_stake")
    let proxySCCode ← readMaybeRef "proxy_sc_code"
    let workerSCCode ← readMaybeRef "worker_sc_code"
    let clientSCCode ← readMaybeRef "client_sc_code"
    pure {
      structVersion := version
      paramsVersion, uniqueID, isTest, pricePerToken, workerFeePerToken, promptTokensPriceMult,
      cachedTokensPriceMult, completionTokensPriceMult, reasoningTokensPriceMult,
      proxyDelayBeforeClose, clientDelayBeforeClose, minProxyStake, minClientStake, proxySCCode,
      workerSCCode, clientSCCode }

def parseParamsCell (params : Option Cell) : Except (Fault ParamsError) StateSnapshot :=
  match params with
  | none => .error (.returned .nilCell)
  | some cell => (exec (readParams Slice.loadBigCoins) (beginParse cell)).1

/-! ## The layout -/

def coins : Option Int → Contents
  | none => .empty
  | some value => amount value.toNat

def paramsContents (snapshot : StateSnapshot) : Contents :=
  let version := snapshot.structVersion
  .word 8 version.toNat ++
  (.word 32 snapshot.paramsVersion.toNat ++
  (.word 32 snapshot.uniqueID.toNat ++
  (.ofBits [snapshot.isTest] ++
  (coins snapshot.pricePerToken ++
  (coins snapshot.workerFeePerToken ++
  (.onlyIf (3 ≤ version) (.word 32 snapshot.promptTokensPriceMult.toNat) ++
  (.onlyIf (2 ≤ version) (.word 32 snapshot.cachedTokensPriceMult.toNat) ++
  (.onlyIf (3 ≤ version) (.word 32 snapshot.completionTokensPriceMult.toNat) ++
  (.onlyIf (2 ≤ version) (.word 32 snapshot.reasoningTokensPriceMult.toNat) ++
  (.word 32 snapshot.proxyDelayBeforeClose.toNat ++
  (.word 32 snapshot.clientDelayBeforeClose.toNat ++
  (.onlyIf (1 ≤ version) (coins snapshot.minProxyStake) ++
  (.onlyIf (1 ≤ version) (coins snapshot.minClientStake) ++
  (.maybeRef snapshot.proxySCCode ++
  (.maybeRef snapshot.workerSCCode ++
  .maybeRef snapshot.clientSCCode)))))))))))))))

def Carried (coins : Option Int) : Prop := ∃ value : Int, coins = some value ∧ 0 ≤ value ∧
  value < 2 ^ 120

def Since {Value : Type} (present : Bool) (zero value : Value) : Prop :=
  present = false → value = zero

/-- A snapshot as a version can carry it. -/
structure Wellformed (snapshot : StateSnapshot) : Prop where
  known : snapshot.structVersion ≤ 5
  price : Carried snapshot.pricePerToken
  fee : Carried snapshot.workerFeePerToken
  prompt : Since (3 ≤ snapshot.structVersion) 0 snapshot.promptTokensPriceMult
  cached : Since (2 ≤ snapshot.structVersion) 0 snapshot.cachedTokensPriceMult
  completion : Since (3 ≤ snapshot.structVersion) 0 snapshot.completionTokensPriceMult
  reasoning : Since (2 ≤ snapshot.structVersion) 0 snapshot.reasoningTokensPriceMult
  stakes : 1 ≤ snapshot.structVersion →
    Carried snapshot.minProxyStake ∧ Carried snapshot.minClientStake
  noStakes : ¬ 1 ≤ snapshot.structVersion →
    snapshot.minProxyStake = none ∧ snapshot.minClientStake = none

def stripped (snapshot : StateSnapshot) : StateSnapshot :=
  { snapshot with proxySCCode := none, workerSCCode := none, clientSCCode := none }

/-! ## The encoder writes the layout -/

theorem writes_since {present : Bool} {store : Builder → Option Builder} {contents : Contents}
    (writes : present = true → Writes store contents) :
    Writes (storeSince present store) (.onlyIf present contents) := by
  cases present with
  | true => exact writes rfl
  | false => exact writes_nothing

theorem writes_coins {coin : Option Int} (carried : Carried coin) :
    Writes (storeCoinsPointer coin) (coins coin) := by
  obtain ⟨value, rfl, positive, small⟩ := carried
  exact writes_amount positive small

theorem coins_within {coin : Option Int} (carried : Carried coin) :
    (coins coin).Within 124 0 := by
  obtain ⟨value, rfl, positive, small⟩ := carried
  have below : value.toNat < 2 ^ 120 := by omega
  exact amount_within below

theorem stakes_since {snapshot : StateSnapshot} (wellformed : Wellformed snapshot)
    (present : decide (1 ≤ snapshot.structVersion) = true) :
    Carried snapshot.minProxyStake ∧ Carried snapshot.minClientStake :=
  wellformed.stakes (of_decide_eq_true present)

theorem params_fit {snapshot : StateSnapshot} (wellformed : Wellformed snapshot) :
    (paramsContents snapshot).Fits := by
  have multiplier : ∀ (present : Bool) (value : Nat),
      (Contents.onlyIf present (.word 32 value)).Within 32 0 := by
    intro present value
    exact Contents.only_if_within fun _ => Contents.word_within 32 value
  have proxyStake := Contents.only_if_within fun present =>
    coins_within (stakes_since wellformed present).1
  have clientStake := Contents.only_if_within fun present =>
    coins_within (stakes_since wellformed present).2
  have whole : (paramsContents snapshot).Within 764 3 :=
    (Contents.word_within 8 _).append <|
    (Contents.word_within 32 _).append <|
    (Contents.word_within 32 _).append <|
    (Contents.bool_within _).append <|
    (coins_within wellformed.price).append <|
    (coins_within wellformed.fee).append <|
    (multiplier _ _).append <|
    (multiplier _ _).append <|
    (multiplier _ _).append <|
    (multiplier _ _).append <|
    (Contents.word_within 32 _).append <|
    (Contents.word_within 32 _).append <|
    proxyStake.append <|
    clientStake.append <|
    (Contents.maybe_ref_within _).append <|
    (Contents.maybe_ref_within _).append <|
    Contents.maybe_ref_within _
  exact ⟨whole.1.trans (by decide), whole.2.trans (by decide)⟩

def written (snapshot : StateSnapshot) (includeCodes : Bool) : StateSnapshot :=
  if includeCodes then snapshot else stripped snapshot

theorem Wellformed.written {snapshot : StateSnapshot} (wellformed : Wellformed snapshot)
    (includeCodes : Bool) : Wellformed (written snapshot includeCodes) := by
  cases includeCodes with
  | true => exact wellformed
  | false => exact { wellformed with }

theorem encode_params {snapshot : StateSnapshot} (wellformed : Wellformed snapshot)
    (includeCodes : Bool) :
    encodeParamsCell snapshot includeCodes =
      some (paramsContents (written snapshot includeCodes)).cell := by
  have fits := params_fit (wellformed.written includeCodes)
  have version := writes_word snapshot.structVersion.toNat_lt beginCell
  have stakes := writes_since fun present =>
    (writes_coins (stakes_since wellformed present).1).andThen
      (writes_coins (stakes_since wellformed present).2)
  have multiplier : ∀ (present : Bool) (value : UInt32),
      Writes (storeSince present (·.storeUInt value.toNat 32))
        (.onlyIf present (.word 32 value.toNat)) := by
    intro present value
    exact writes_since fun _ => writes_uint32 value
  have codes : ∀ ref : Option Cell, Writes
      (·.storeMaybeRef (if includeCodes then ref else none))
      (.maybeRef (if includeCodes then ref else none)) := by
    intro ref
    exact writes_maybe_ref _
  dsimp only at version
  unfold encodeParamsCell
  simp only [Option.bind_eq_bind, Option.bind_assoc]
  rw [version, extend_store (writes_uint32 _), extend_store (writes_uint32 _),
    extend_store (writes_bool _), extend_store (writes_coins wellformed.price),
    extend_store (writes_coins wellformed.fee), extend_store (multiplier _ _),
    extend_store (multiplier _ _), extend_store (multiplier _ _), extend_store (multiplier _ _),
    extend_store (writes_uint32 _), extend_store (writes_uint32 _), extend_store stakes,
    extend_store (codes _), extend_store (codes _), extend_store (codes _)]
  apply built_cell _ fits
  simp only [Contents.only_if_append, Contents.append_assoc]
  cases includeCodes with
  | true => rfl
  | false => rfl

/-! ## The parser consumes the layout -/

section Fields

variable {field : String}

theorem consumes_u8 (value : UInt8) : Consumes (readU8 field) (.word 8 value.toNat) value := by
  have read : Consumes (reading (ParamsError.field field) (·.loadUInt 8)) (.word 8 value.toNat)
      value.toNat := consumes_reading fun rest => load_word value.toNat_lt rest
  have whole := read.map UInt8.ofNat
  rwa [UInt8.ofNat_toNat] at whole

theorem consumes_u32 (value : UInt32) :
    Consumes (readU32 field) (.word 32 value.toNat) value := by
  have read : Consumes (reading (ParamsError.field field) (·.loadUInt 32)) (.word 32 value.toNat)
      value.toNat := consumes_reading fun rest => load_word value.toNat_lt rest
  have whole := read.map UInt32.ofNat
  rwa [UInt32.ofNat_toNat] at whole

theorem consumes_bool (value : Bool) : Consumes (readBool field) (.ofBits [value]) value :=
  consumes_reading fun rest => load_bool value rest

/-- A loader of amounts that reads those of minimal length. -/
def LoadsAmounts (loadCoins : Slice → Option (Nat × Slice)) : Prop :=
  ∀ value, value < 2 ^ 120 → ∀ rest, loadCoins ((amount value).before rest) = some (value, rest)

theorem consumes_coins {loadCoins : Slice → Option (Nat × Slice)} (loads : LoadsAmounts loadCoins)
    {coin : Option Int} (carried : Carried coin) :
    Consumes (readCoins loadCoins field) (coins coin) coin := by
  obtain ⟨value, rfl, positive, small⟩ := carried
  have below : value.toNat < 2 ^ 120 := by omega
  have same : ((value.toNat : Nat) : Int) = value := Int.toNat_of_nonneg positive
  have read : Consumes (reading (ParamsError.field field) loadCoins)
      (amount value.toNat) value.toNat := consumes_reading fun rest => loads _ below rest
  have whole := read.map fun found => some (found : Int)
  rwa [same] at whole

theorem consumes_maybe_ref (cell : Option Cell) :
    Consumes (readMaybeRef field) (.maybeRef cell) cell :=
  consumes_reading fun rest => load_maybe_ref cell rest

theorem consumes_since {Value : Type} {present : Bool} {zero value : Value}
    {program : ParamsM Value} {contents : Contents} (absent : Since present zero value)
    (read : present = true → Consumes program contents value) :
    Consumes (readSince present zero program) (.onlyIf present contents) value := by
  cases present with
  | true => exact read rfl
  | false =>
      rw [absent rfl]
      exact consumes_pure zero

end Fields

theorem params_consumed {loadCoins : Slice → Option (Nat × Slice)}
    (loads : LoadsAmounts loadCoins) {snapshot : StateSnapshot}
    (wellformed : Wellformed snapshot) :
    Consumes (readParams loadCoins) (paramsContents snapshot) snapshot := by
  have known : ¬ 5 < snapshot.structVersion := UInt8.not_lt.mpr wellformed.known
  have stakes := fun present => stakes_since wellformed present
  have noStakes : decide (1 ≤ snapshot.structVersion) = false →
      snapshot.minProxyStake = none ∧ snapshot.minClientStake = none := by
    intro absent
    exact wellformed.noStakes (of_decide_eq_false absent)
  unfold readParams paramsContents
  apply (consumes_u8 _).bind
  rw [if_neg known]
  apply (consumes_u32 _).bind
  apply (consumes_u32 _).bind
  apply (consumes_bool _).bind
  apply (consumes_coins loads wellformed.price).bind
  apply (consumes_coins loads wellformed.fee).bind
  apply (consumes_since wellformed.prompt fun _ => consumes_u32 _).bind
  apply (consumes_since wellformed.cached fun _ => consumes_u32 _).bind
  apply (consumes_since wellformed.completion fun _ => consumes_u32 _).bind
  apply (consumes_since wellformed.reasoning fun _ => consumes_u32 _).bind
  apply (consumes_u32 _).bind
  apply (consumes_u32 _).bind
  apply (consumes_since (fun absent => (noStakes absent).1)
    fun present => consumes_coins loads (stakes present).1).bind
  apply (consumes_since (fun absent => (noStakes absent).2)
    fun present => consumes_coins loads (stakes present).2).bind
  apply (consumes_maybe_ref _).bind
  apply (consumes_maybe_ref _).bind
  exact (consumes_maybe_ref snapshot.clientSCCode).map _

/-! ## What an accepted cell holds -/

section Found

variable {field : String}

theorem takes_u8 : Takes (readU8 field) fun value contents => contents = .word 8 value.toNat := by
  apply takes_word.bind
  rintro value contents ⟨rfl, small⟩
  have same : (UInt8.ofNat value).toNat = value := UInt8.toNat_ofNat_of_lt' small
  apply takes_pure
  rw [Contents.append_empty, same]

theorem takes_u32 :
    Takes (readU32 field) fun value contents => contents = .word 32 value.toNat := by
  apply takes_word.bind
  rintro value contents ⟨rfl, small⟩
  have same : (UInt32.ofNat value).toNat = value := UInt32.toNat_ofNat_of_lt' small
  apply takes_pure
  rw [Contents.append_empty, same]

theorem takes_bool : Takes (readBool field) fun value contents => contents = .ofBits [value] :=
  takes_reading fun _ _ _ found => ⟨_, load_bool_found found, rfl⟩

theorem takes_coins : Takes (readCoins loadMinimalCoins field) fun coin contents =>
    contents = coins coin ∧ Carried coin := by
  apply takes_minimal.bind
  rintro value contents ⟨rfl, small⟩
  apply takes_pure
  refine ⟨Contents.append_empty _, value, rfl, ?_, ?_⟩
  · exact Int.natCast_nonneg value
  · exact_mod_cast small

theorem takes_maybe_ref :
    Takes (readMaybeRef field) fun cell contents => contents = .maybeRef cell :=
  takes_reading fun _ _ _ found => ⟨_, load_maybe_ref_found found, rfl⟩

theorem takes_since {Value : Type} {present : Bool} {zero : Value} {program : ParamsM Value}
    {spell : Value → Contents} {valid : Value → Prop}
    (taken : Takes program fun value contents => contents = spell value ∧ valid value) :
    Takes (readSince present zero program) fun value contents =>
      contents = .onlyIf present (spell value) ∧ Since present zero value ∧
        (present = true → valid value) := by
  cases present with
  | true =>
      intro slice value rest ran
      obtain ⟨contents, whole, spelled, holds⟩ := taken slice value rest ran
      exact ⟨contents, whole, spelled, nofun, fun _ => holds⟩
  | false =>
      apply takes_pure
      exact ⟨rfl, fun _ => rfl, nofun⟩

theorem takes_multiplier {present : Bool} :
    Takes (readSince present 0 (readU32 field)) fun value contents =>
      contents = .onlyIf present (.word 32 value.toNat) ∧ Since present 0 value := by
  have word : Takes (readU32 field) fun value contents =>
      contents = .word 32 value.toNat ∧ True := by
    intro slice value rest ran
    obtain ⟨contents, whole, spelled⟩ := takes_u32 slice value rest ran
    exact ⟨contents, whole, spelled, trivial⟩
  intro slice value rest ran
  obtain ⟨contents, whole, spelled, absent, -⟩ := takes_since word slice value rest ran
  exact ⟨contents, whole, spelled, absent⟩

end Found

theorem params_found : Takes (readParams loadMinimalCoins) fun snapshot contents =>
    contents = paramsContents snapshot ∧ Wellformed snapshot := by
  unfold readParams
  apply takes_u8.bind
  rintro version _ rfl
  split_ifs with unknown
  · exact takes_fail
  apply takes_u32.bind
  rintro paramsVersion _ rfl
  apply takes_u32.bind
  rintro uniqueID _ rfl
  apply takes_bool.bind
  rintro isTest _ rfl
  apply takes_coins.bind
  rintro price _ ⟨rfl, priceCarried⟩
  apply takes_coins.bind
  rintro fee _ ⟨rfl, feeCarried⟩
  apply takes_multiplier.bind
  rintro prompt _ ⟨rfl, promptSince⟩
  apply takes_multiplier.bind
  rintro cached _ ⟨rfl, cachedSince⟩
  apply takes_multiplier.bind
  rintro completion _ ⟨rfl, completionSince⟩
  apply takes_multiplier.bind
  rintro reasoning _ ⟨rfl, reasoningSince⟩
  apply takes_u32.bind
  rintro proxyDelay _ rfl
  apply takes_u32.bind
  rintro clientDelay _ rfl
  apply (takes_since takes_coins).bind
  rintro proxyStake _ ⟨rfl, noProxyStake, proxyCarried⟩
  apply (takes_since takes_coins).bind
  rintro clientStake _ ⟨rfl, noClientStake, clientCarried⟩
  apply takes_maybe_ref.bind
  rintro proxyCode _ rfl
  apply takes_maybe_ref.bind
  rintro workerCode _ rfl
  apply takes_maybe_ref.bind
  rintro clientCode _ rfl
  apply takes_pure
  rw [Contents.append_empty]
  refine ⟨rfl, UInt8.not_lt.mp unknown, priceCarried, feeCarried, promptSince, cachedSince,
    completionSince, reasoningSince, ?_, ?_⟩
  · intro carried
    exact ⟨proxyCarried (decide_eq_true carried), clientCarried (decide_eq_true carried)⟩
  · intro early
    exact ⟨noProxyStake (decide_eq_false early), noClientStake (decide_eq_false early)⟩

/-! ## Round trips -/

/-- The parser leaves nothing of the cell. -/
def ConsumedEntirely (cell : Cell) : Prop :=
  (exec (readParams Slice.loadBigCoins) (beginParse cell)).2 = ⟨[], []⟩

/-- A parser that insists on amounts of minimal length accepts the cell too. -/
def MinimalAmounts (cell : Cell) : Prop :=
  ∃ snapshot rest, exec (readParams loadMinimalCoins) (beginParse cell) = (.ok snapshot, rest)

theorem coins_loaded : LoadsAmounts Slice.loadBigCoins := fun _ small rest => load_amount small rest

theorem contents_read {loadCoins : Slice → Option (Nat × Slice)} (loads : LoadsAmounts loadCoins)
    {snapshot : StateSnapshot} (wellformed : Wellformed snapshot) :
    exec (readParams loadCoins) (beginParse (paramsContents snapshot).cell) =
      (.ok snapshot, ⟨[], []⟩) := by
  rw [← Contents.before_nothing]
  exact params_consumed loads wellformed ⟨[], []⟩

theorem parse_contents {snapshot : StateSnapshot} (wellformed : Wellformed snapshot) :
    parseParamsCell (some (paramsContents snapshot).cell) = .ok snapshot := by
  rw [parseParamsCell, contents_read coins_loaded wellformed]

theorem begin_parse_injective {left right : Cell} (same : beginParse left = beginParse right) :
    left = right := by
  cases left
  cases right
  cases same
  rfl

theorem minimal_layout {cell : Cell} {snapshot : StateSnapshot}
    (parsed : parseParamsCell (some cell) = .ok snapshot) (consumed : ConsumedEntirely cell)
    (minimal : MinimalAmounts cell) :
    cell = (paramsContents snapshot).cell ∧ Wellformed snapshot := by
  obtain ⟨found, rest, ran⟩ := minimal
  obtain ⟨_, whole, rfl, wellformed⟩ := params_found _ _ _ ran
  have again := params_consumed coins_loaded wellformed rest
  rw [parseParamsCell, whole, again] at parsed
  rw [ConsumedEntirely, whole, again] at consumed
  cases parsed
  cases consumed
  rw [Contents.before_nothing] at whole
  exact ⟨begin_parse_injective whole, wellformed⟩

theorem params_cell_round_trips :
    (∀ snapshot, Wellformed snapshot → ∃ cell, encodeParamsCell snapshot true = some cell ∧
      parseParamsCell (some cell) = .ok snapshot) ∧
    (∀ snapshot, Wellformed snapshot → ∃ cell, snapshot.clientParamsCell = some cell ∧
      parseParamsCell (some cell) = .ok (stripped snapshot)) ∧
    (∀ cell snapshot, parseParamsCell (some cell) = .ok snapshot → ConsumedEntirely cell →
      MinimalAmounts cell → encodeParamsCell snapshot true = some cell) := by
  refine ⟨?_, ?_, ?_⟩
  · intro snapshot wellformed
    exact ⟨_, encode_params wellformed true, parse_contents wellformed⟩
  · intro snapshot wellformed
    exact ⟨_, encode_params wellformed false, parse_contents (wellformed.written false)⟩
  · intro cell snapshot parsed consumed minimal
    obtain ⟨rfl, wellformed⟩ := minimal_layout parsed consumed minimal
    exact encode_params wellformed true

def sampleSnapshot : StateSnapshot where
  structVersion := 2
  paramsVersion := 7
  uniqueID := 1
  isTest := false
  pricePerToken := some 20
  workerFeePerToken := some 0
  promptTokensPriceMult := 0
  cachedTokensPriceMult := 30
  completionTokensPriceMult := 0
  reasoningTokensPriceMult := 40
  proxyDelayBeforeClose := 60
  clientDelayBeforeClose := 90
  minProxyStake := some 1000000000
  minClientStake := some 256
  proxySCCode := none
  workerSCCode := some (.mk [true] [])
  clientSCCode := none

theorem sample_wellformed : Wellformed sampleSnapshot where
  known := by decide
  price := ⟨20, rfl, by decide, by decide⟩
  fee := ⟨0, rfl, by decide, by decide⟩
  prompt := fun _ => rfl
  cached := fun absent => absurd absent (by decide)
  completion := fun _ => rfl
  reasoning := fun absent => absurd absent (by decide)
  stakes := fun _ => ⟨⟨1000000000, rfl, by decide, by decide⟩, ⟨256, rfl, by decide, by decide⟩⟩
  noStakes := fun early => absurd (by decide) early

theorem sample_round_trips :
    (∃ cell, encodeParamsCell sampleSnapshot true = some cell ∧
      parseParamsCell (some cell) = .ok sampleSnapshot) ∧
    (∃ cell, sampleSnapshot.clientParamsCell = some cell ∧
      parseParamsCell (some cell) = .ok (stripped sampleSnapshot)) ∧
    encodeParamsCell sampleSnapshot true = some (paramsContents sampleSnapshot).cell := by
  obtain ⟨whole, client, rebuilt⟩ := params_cell_round_trips
  have consumed : ConsumedEntirely (paramsContents sampleSnapshot).cell := by
    rw [ConsumedEntirely, contents_read coins_loaded sample_wellformed]
  have minimal : MinimalAmounts (paramsContents sampleSnapshot).cell :=
    ⟨_, _, contents_read (fun _ small rest => load_minimal small rest) sample_wellformed⟩
  exact ⟨whole _ sample_wellformed, client _ sample_wellformed,
    rebuilt _ _ (parse_contents sample_wellformed) consumed minimal⟩

end Gocoon.RootParams
