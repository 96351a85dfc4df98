import NeonTests.Web3Client.Definitions

/-!
# Web3 client — the transactions of make_raw_tx

What a transaction has of the arguments it is made for (`Honours`), field by field: a legacy one is
made by assignments (`makeRawTxLegacy_eq_ok`), one of EIP-1559 by the loop, whose fields are those
of its parameters (`get?_addParams`).

* `makeRawTx_honours_iff` — everything given is in the transaction, but for the gas and the price
  of one of EIP-1559: not if the gas is estimated all the same, or if no gas is given. The two types
  differ in nothing but the fees, unless the gas that is estimated for each is not the same.
-/

namespace NeonTests.Web3Client

open Python Fallible

variable {ν : Type} [DecidableEq ν]

/-! ## What the arguments ask for -/

variable [Zero ν] {node : Node ν} {a : Arguments ν}

/-- A value that is there, and neither zero nor empty. -/
def given (v : Option (Value ν)) : Option (Value ν) := v.filter Value.truthy

/-- The field that bounds the price. -/
def priceField : TransactionType → String
  | .legacy => "gasPrice"
  | .eip1559 => "maxFeePerGas"

/-- The fields that no type treats differently: those that are given, and nothing or the node's
answer for the others. -/
structure Filled (node : Node ν) (a : Arguments ν) (tx : Tx ν) : Prop where
  sender : tx.get? "from" = some (.text a.from_.address)
  to_ : given (tx.get? "to") = given (a.to_.map fun account => .text account.address)
  amount : given (tx.get? "value") = given (a.amount.map Value.amount)
  data : given (tx.get? "data") = given a.data
  nonce : ∃ nonce, orAsk a.nonce (node.nonce a.from_.address) = .ok nonce ∧
    tx.get? "nonce" = some (.int nonce)
  chainId : ∃ chainId, orAsk a.chainId node.chainId = .ok chainId ∧
    given (tx.get? "chainId") = given (some (.int chainId))
  noGas : a.gas.getD 0 = 0 → a.estimateGas = false → given (tx.get? "gas") = none
  estimatedGas : a.gas.getD 0 = 0 → a.estimateGas = true →
    ∃ asked gas, node.estimateGas asked = .ok gas ∧
      given (tx.get? "gas") = given (some (.int gas))

/-- The transaction is as the arguments ask for. -/
structure Honours (node : Node ν) (a : Arguments ν) (t : TransactionType) (tx : Tx ν) : Prop where
  filled : Filled node a tx
  gas : ∀ gas, a.gas = some gas → gas ≠ 0 → tx.get? "gas" = some (.int gas)
  price : ∀ gasPrice, a.gasPrice = some gasPrice → tx.get? (priceField t) = some (.int gasPrice)

/-! ## The fields of a legacy transaction -/

omit [Zero ν] in
theorem get?_setSome (tx : Tx ν) (key : String) (v : Option (Value ν)) (k : String) :
    (setSome tx key v).get? k = if key = k then v.or (tx.get? k) else tx.get? k := by
  rcases v with _ | v
  · simp [setSome]
  · rw [setSome, Dict.get?_set]
    split <;> rfl

theorem given_toField (recipient : Option Account) :
    given (recipient.bind toField) =
      given (recipient.map fun account => (.text account.address : Value ν)) := by
  rcases recipient with _ | s | s
  · rfl
  · by_cases hs : s = ""
    · subst hs
      rfl
    · simp [toField, Account.address, hs]
  · rfl

theorem given_filter (v : Option (Value ν)) : given (v.filter Value.truthy) = given v := by
  rw [given, Option.filter_filter, given]
  simp

theorem given_given (v : Option (Value ν)) : given (given v) = given v := given_filter v

theorem given_int {n : Int} (h : n ≠ 0) :
    given (some (.int n : Value ν)) = some (.int n) := by
  simp [given, Option.filter_some, Value.truthy, h]

theorem given_zero : given (some (.int 0 : Value ν)) = none := rfl

theorem given_int_inj {m n : Int} :
    given (some (.int m : Value ν)) = given (some (.int n)) ↔ m = n := by
  constructor
  · intro h
    by_cases hm : m = 0 <;> by_cases hn : n = 0 <;>
      simp_all [given_int, given_zero]
  · rintro rfl
    rfl

/-- The fields of a legacy transaction for which its gas is estimated. -/
def legacyFields (a : Arguments ν) (nonce chainId gasPrice : Int) : Tx ν :=
  let tx := Dict.empty.set "from" (.text a.from_.address)
  let tx := setSome tx "to" (a.to_.bind toField)
  let tx := setSome tx "value" ((a.amount.map Value.amount).filter Value.truthy)
  let tx := setSome tx "data" (a.data.filter Value.truthy)
  let tx := tx.set "nonce" (.int nonce)
  let tx := if a.chainId = some 0 then tx else tx.set "chainId" (.int chainId)
  tx.set "gasPrice" (.int gasPrice)

/-- The answer to the estimation of the gas of a legacy transaction. -/
def legacyEstimate (node : Node ν) (a : Arguments ν) : Except PyError Int := do
  let nonce ← orAsk a.nonce (node.nonce a.from_.address)
  let chainId ← orAsk a.chainId node.chainId
  let gasPrice ← orAsk a.gasPrice node.gasPrice
  node.estimateGas (legacyFields a nonce chainId gasPrice)

/-- What a legacy transaction is made of. -/
theorem makeRawTxLegacy_eq_ok {tx : Tx ν} (h : makeRawTxLegacy node a = .ok tx) :
    ∃ nonce chainId gasPrice gas,
      orAsk a.nonce (node.nonce a.from_.address) = .ok nonce ∧
      orAsk a.chainId node.chainId = .ok chainId ∧
      orAsk a.gasPrice node.gasPrice = .ok gasPrice ∧
      legacyGas node a (legacyFields a nonce chainId gasPrice) = .ok gas ∧
      tx.get? "from" = some (.text a.from_.address) ∧
      tx.get? "to" = a.to_.bind toField ∧
      tx.get? "value" = (a.amount.map Value.amount).filter Value.truthy ∧
      tx.get? "data" = a.data.filter Value.truthy ∧
      tx.get? "nonce" = some (.int nonce) ∧
      tx.get? "chainId" = (if a.chainId = some 0 then none else some (.int chainId)) ∧
      tx.get? "gasPrice" = some (.int gasPrice) ∧
      tx.get? "gas" = given (some (.int gas)) := by
  obtain ⟨nonce, hnonce, h⟩ := bind_eq_ok.mp h
  obtain ⟨chainId, hchainId, h⟩ := bind_eq_ok.mp h
  obtain ⟨gasPrice, hgasPrice, h⟩ := bind_eq_ok.mp h
  obtain ⟨gas, hgas, h⟩ := bind_eq_ok.mp h
  obtain rfl := pure_eq_ok.mp h
  refine ⟨nonce, chainId, gasPrice, gas, hnonce, hchainId, hgasPrice, hgas, ?_⟩
  have hempty (key : String) : (Dict.empty : Tx ν).get? key = none := rfl
  have hgasField : (if gas = 0 then none else some (.int gas : Value ν)) =
      given (some (.int gas)) := by
    by_cases hzero : gas = 0
    · rw [if_pos hzero, hzero, given_zero]
    · rw [if_neg hzero, given_int hzero]
  by_cases hchain : a.chainId = some 0 <;>
    simp [hchain, get?_setSome, Dict.get?_set, hempty, hgasField]

theorem orAsk_some (n : Int) (ask : Except PyError Int) : orAsk (some n) ask = .ok n := rfl

/-- A legacy transaction is always as the arguments ask for. -/
theorem honours_legacy {tx : Tx ν} (h : makeRawTxLegacy node a = .ok tx) :
    Honours node a .legacy tx := by
  obtain ⟨nonce, chainId, gasPrice, gas, hnonce, hchainId, hgasPrice, hgas, hfrom, hto,
    hvalue, hdata, hnonceField, hchainField, hpriceField, hgasField⟩ := makeRawTxLegacy_eq_ok h
  refine ⟨⟨hfrom, by rw [hto, given_toField], by rw [hvalue, given_filter],
    by rw [hdata, given_filter], ⟨nonce, hnonce, hnonceField⟩, ⟨chainId, hchainId, ?_⟩, ?_, ?_⟩,
    ?_, ?_⟩
  · rw [hchainField]
    split
    · next hzero =>
      rw [hzero, orAsk_some, Except.ok.injEq] at hchainId
      rw [← hchainId]
      rfl
    · rfl
  · intro hzero hestimate
    rw [legacyGas, if_neg (by simp [hestimate]), hzero, Except.ok.injEq] at hgas
    rw [hgasField, ← hgas]
    rfl
  · intro hzero hestimate
    rw [legacyGas, if_pos ⟨hestimate, hzero⟩] at hgas
    refine ⟨_, gas, hgas, ?_⟩
    rw [hgasField]
    exact given_given _
  · intro g hg hzero
    rw [legacyGas, hg, Option.getD_some, if_neg (fun h => hzero h.2), Except.ok.injEq] at hgas
    rw [hgasField, ← hgas, given_int hzero]
  · intro p hp
    rw [hp, orAsk_some, Except.ok.injEq] at hgasPrice
    rw [priceField, hpriceField, hgasPrice]

/-! ## The fields of an EIP-1559 transaction -/

omit [Zero ν] in
theorem addParam_eq_ok {sender : String} {base : Int} {params params' : Tx ν}
    {kwarg : String × Option (Value ν)}
    (h : addParam node sender base params kwarg = .ok params') :
    kwarg.2 = none ∧ params' = params ∨
    ∃ value y, kwarg.2 = some value ∧ paramValue node sender base params kwarg.1 value = .ok y ∧
      params' = params.set (caseSnakeToCamel kwarg.1) y := by
  rw [addParam] at h
  rcases hvalue : kwarg.2 with _ | value
  · rw [hvalue] at h
    exact .inl ⟨rfl, (Except.ok.inj h).symm⟩
  · rw [hvalue] at h
    obtain ⟨y, hy, hset⟩ := bind_eq_ok.mp h
    exact .inr ⟨value, y, rfl, hy, (pure_eq_ok.mp hset).symm⟩

/-- The fields of parameters. -/
def fieldNames (kwargs : List (String × Option (Value ν))) : List String :=
  kwargs.map fun kwarg => caseSnakeToCamel kwarg.1

omit [DecidableEq ν] [Zero ν] in
theorem mem_fieldNames {kwargs : List (String × Option (Value ν))} {name : String}
    {v : Option (Value ν)} (h : (name, v) ∈ kwargs) :
    caseSnakeToCamel name ∈ fieldNames kwargs := by
  rw [fieldNames, List.mem_map]
  exact ⟨(name, v), h, rfl⟩

omit [Zero ν] in
theorem get?_addParams_other {sender : String} {base : Int} {params params' : Tx ν}
    {kwargs : List (String × Option (Value ν))}
    (h : addParams node sender base params kwargs = .ok params') {key : String}
    (hkey : key ∉ fieldNames kwargs) : params'.get? key = params.get? key := by
  induction kwargs generalizing params with
  | nil => rw [← Except.ok.inj h]
  | cons kwarg kwargs ih =>
    rw [addParams, List.foldlM_cons] at h
    obtain ⟨next, hnext, hrest⟩ := bind_eq_ok.mp h
    rw [fieldNames, List.map_cons, List.mem_cons, not_or] at hkey
    rw [ih hrest hkey.2]
    rcases addParam_eq_ok hnext with ⟨-, rfl⟩ | ⟨value, y, -, -, rfl⟩
    · rfl
    · rw [Dict.get?_set, if_neg (Ne.symm hkey.1)]

omit [Zero ν] in
/-- What a parameter gives its field, `mid` being what the parameters before it have made. -/
theorem get?_addParams {sender : String} {base : Int} {params params' : Tx ν}
    {kwargs : List (String × Option (Value ν))}
    (h : addParams node sender base params kwargs = .ok params')
    (hnodup : (fieldNames kwargs).Nodup) {i : Nat} {name : String} {v : Option (Value ν)}
    (hi : kwargs[i]? = some (name, v)) :
    ∃ mid, addParams node sender base params (kwargs.take i) = .ok mid ∧
      (v = none → params'.get? (caseSnakeToCamel name) = params.get? (caseSnakeToCamel name)) ∧
      ∀ value, v = some value → ∃ y, paramValue node sender base mid name value = .ok y ∧
        params'.get? (caseSnakeToCamel name) = some y := by
  induction kwargs generalizing params i with
  | nil => cases hi
  | cons kwarg kwargs ih =>
    rw [addParams, List.foldlM_cons] at h
    obtain ⟨next, hnext, hrest⟩ := bind_eq_ok.mp h
    obtain ⟨hkwarg, hkwargs⟩ := List.nodup_cons.mp hnodup
    rcases i with _ | i
    · obtain rfl : kwarg = (name, v) := Option.some.inj hi
      refine ⟨params, rfl, ?_⟩
      rw [get?_addParams_other hrest hkwarg]
      rcases addParam_eq_ok hnext with ⟨hnone, rfl⟩ | ⟨value, y, hsome, hy, rfl⟩
      · exact ⟨fun _ => rfl, fun value hvalue => absurd (hnone.symm.trans hvalue) (by simp)⟩
      · refine ⟨fun hnone => absurd (hsome.symm.trans hnone) (by simp), fun value' hvalue => ?_⟩
        obtain rfl : value = value' := Option.some.inj (hsome.symm.trans hvalue)
        exact ⟨y, hy, by rw [Dict.get?_set, if_pos rfl]⟩
    · obtain ⟨mid, hmid, hnone, hsome⟩ := ih hrest hkwargs hi
      refine ⟨mid, ?_, fun hv => ?_, hsome⟩
      · rw [List.take_succ_cons, addParams, List.foldlM_cons, hnext]
        exact hmid
      · rw [List.getElem?_cons_succ] at hi
        have hname : caseSnakeToCamel name ∈ fieldNames kwargs :=
          mem_fieldNames (List.mem_of_getElem? hi)
        have hne : caseSnakeToCamel kwarg.1 ≠ caseSnakeToCamel name :=
          fun heq => hkwarg (by rwa [← heq] at hname)
        rw [hnone hv]
        rcases addParam_eq_ok hnext with ⟨-, rfl⟩ | ⟨value, y, -, -, rfl⟩
        · rfl
        · rw [Dict.get?_set, if_neg hne]

/-- The keys of an EIP-1559 transaction behind its type, in the order of its parameters. -/
def eip1559Keys : List String :=
  ["chainId", "from", "to", "value", "nonce", "data", "accessList", "gas",
    "maxPriorityFeePerGas", "maxFeePerGas"]

theorem caseSnakeToCamel_names :
    ["chain_id", "from_", "to", "value", "nonce", "data", "access_list", "gas",
      "max_priority_fee_per_gas", "max_fee_per_gas"].map caseSnakeToCamel = eip1559Keys := by
  decide

omit [DecidableEq ν] [Zero ν] in
theorem fieldNames_eip1559 (p : Eip1559 ν) : fieldNames (p.fields ++ p.fees) = eip1559Keys := by
  rw [← caseSnakeToCamel_names]
  rfl

omit [DecidableEq ν] [Zero ν] in
/-- The key of a parameter, by its place. -/
theorem caseSnakeToCamel_eq_key {p : Eip1559 ν} {i : Nat} {name key : String}
    {v : Option (Value ν)} (hi : (p.fields ++ p.fees)[i]? = some (name, v))
    (hkey : eip1559Keys[i]? = some key) : caseSnakeToCamel name = key := by
  rw [← fieldNames_eip1559 p, fieldNames, List.getElem?_map, hi] at hkey
  exact Option.some.inj hkey

omit [Zero ν] in
theorem makeRawTxEip1559_eq_ok {p : Eip1559 ν} {tx : Tx ν}
    (h : makeRawTxEip1559 node p = .ok tx) :
    ∃ base, baseFee node p = .ok base ∧
      ∀ {i name key v}, (p.fields ++ p.fees)[i]? = some (name, v) → eip1559Keys[i]? = some key →
        ∃ mid, addParams node p.from_.address base eip1559Type ((p.fields ++ p.fees).take i) =
            .ok mid ∧
          (v = none → tx.get? key = none) ∧
          ∀ value, v = some value →
            ∃ y, paramValue node p.from_.address base mid name value = .ok y ∧
              tx.get? key = some y := by
  obtain ⟨base, hbase, hparams⟩ := bind_eq_ok.mp h
  refine ⟨base, hbase, fun {i name key v} hi hkey => ?_⟩
  have hnames := fieldNames_eip1559 p
  obtain ⟨mid, hmid, hnone, hsome⟩ := get?_addParams hparams (by rw [hnames]; decide) hi
  rw [caseSnakeToCamel_eq_key hi hkey] at hnone hsome
  refine ⟨mid, hmid, fun hv => ?_, hsome⟩
  have htype : key ≠ "type" := by
    have hmem : key ∈ eip1559Keys := List.mem_of_getElem? hkey
    exact fun heq => absurd (heq ▸ hmem) (by decide)
  rw [hnone hv, eip1559Type, Dict.get?_set, if_neg (Ne.symm htype)]
  rfl

omit [Zero ν] in
/-- A parameter that has no automatic value is taken as it is. -/
theorem paramValue_plain {sender name : String} {base : Int} {mid : Tx ν} {value y : Value ν}
    (hauto : autoValue node sender base mid name = .error (.keyError name))
    (h : paramValue node sender base mid name value = .ok y) : y = value := by
  rw [paramValue] at h
  split at h
  · rw [hauto] at h
    cases h
  · exact (Except.ok.inj h).symm

omit [Zero ν] in
theorem paramValue_int {sender name : String} {base : Int} {mid : Tx ν} {n : Int} :
    paramValue node sender base mid name (.int n) = .ok (.int n) := by
  rw [paramValue, if_neg]
  simp [auto]

omit [Zero ν] in
theorem paramValue_auto {sender name : String} {base : Int} {mid : Tx ν} :
    paramValue node sender base mid name auto = autoValue node sender base mid name :=
  if_pos rfl

omit [Zero ν] in
/-- The fields of an EIP-1559 transaction that are not of the gas. -/
theorem eip1559_fields {a : Arguments ν} {priority fee : Value ν} {tx : Tx ν}
    (h : makeRawTxEip1559 node (eip1559Params a priority fee) = .ok tx) :
    tx.get? "from" = some (.text a.from_.address) ∧
    tx.get? "to" = a.to_.map (fun account => .text account.address) ∧
    tx.get? "value" = a.amount.map Value.amount ∧
    tx.get? "data" = a.data ∧
    (∃ nonce, orAsk a.nonce (node.nonce a.from_.address) = .ok nonce ∧
      tx.get? "nonce" = some (.int nonce)) ∧
    ∃ chainId, orAsk a.chainId node.chainId = .ok chainId ∧
      tx.get? "chainId" = some (.int chainId) := by
  obtain ⟨base, -, hparam⟩ := makeRawTxEip1559_eq_ok h
  -- what has no automatic value is as it was given
  have hplain {i : Nat} {name key : String} {v : Option (Value ν)}
      (hi : ((eip1559Params a priority fee).fields ++ (eip1559Params a priority fee).fees)[i]? =
        some (name, v))
      (hkey : eip1559Keys[i]? = some key)
      (hauto : ∀ mid, autoValue node a.from_.address base mid name = .error (.keyError name)) :
      tx.get? key = v := by
    obtain ⟨mid, -, hnone, hsome⟩ := hparam hi hkey
    rcases v with _ | value
    · exact hnone rfl
    · obtain ⟨y, hy, hfield⟩ := hsome value rfl
      rw [hfield, paramValue_plain (hauto mid) hy]
  have hask {i : Nat} {name key : String} {n : Option Int} {ask : Except PyError Int}
      (hi : ((eip1559Params a priority fee).fields ++ (eip1559Params a priority fee).fees)[i]? =
        some (name, some ((n.map Value.int).getD auto)))
      (hkey : eip1559Keys[i]? = some key)
      (hauto : ∀ mid, autoValue node a.from_.address base mid name = Value.int <$> ask) :
      ∃ m, orAsk n ask = .ok m ∧ tx.get? key = some (.int m) := by
    obtain ⟨mid, -, -, hsome⟩ := hparam hi hkey
    obtain ⟨y, hy, hfield⟩ := hsome _ rfl
    rcases n with _ | n
    · have hanswer : Value.int <$> ask = .ok y := by
        rw [← hauto mid, ← paramValue_auto]
        exact hy
      rcases ask with e | m
      · cases hanswer
      · exact ⟨m, rfl, by rw [hfield, ← Except.ok.inj hanswer]⟩
    · have hanswer := paramValue_int.symm.trans hy
      exact ⟨n, rfl, by rw [hfield, ← Except.ok.inj hanswer]⟩
  refine ⟨hplain (i := 1) rfl rfl fun _ => rfl, hplain (i := 2) rfl rfl fun _ => rfl,
    hplain (i := 3) rfl rfl fun _ => rfl, hplain (i := 5) rfl rfl fun _ => rfl,
    hask (i := 4) rfl rfl fun _ => rfl, hask (i := 0) rfl rfl fun _ => rfl⟩

omit [Zero ν] in
theorem autoValue_base {sender name : String} (base base' : Int) (mid : Tx ν)
    (hname : name ≠ "max_fee_per_gas") :
    autoValue node sender base mid name = autoValue node sender base' mid name := by
  unfold autoValue
  split <;> first | rfl | exact absurd rfl hname

omit [Zero ν] in
/-- The base fee is only used for the fee. -/
theorem addParams_base {sender : String} (base base' : Int) {params : Tx ν}
    {kwargs : List (String × Option (Value ν))}
    (hnames : ∀ kwarg ∈ kwargs, kwarg.1 ≠ "max_fee_per_gas") :
    addParams node sender base params kwargs = addParams node sender base' params kwargs := by
  induction kwargs generalizing params with
  | nil => rfl
  | cons kwarg kwargs ih =>
    have hvalue : addParam node sender base params kwarg =
        addParam node sender base' params kwarg := by
      simp only [addParam, paramValue,
        autoValue_base base base' params (hnames kwarg List.mem_cons_self)]
    rw [addParams, List.foldlM_cons, hvalue, addParams, List.foldlM_cons]
    congr 1
    funext next
    exact ih fun k hk => hnames k (List.mem_cons_of_mem kwarg hk)

/-- The answer to the estimation of the gas, which is asked for the fields before it. -/
def estimatedGas (node : Node ν) (a : Arguments ν) : Except PyError Int :=
  addParams node a.from_.address 0 eip1559Type (eip1559Params a auto auto).fields >>=
    node.estimateGas

/-- The fee for the base fee and the priority fee that the node answers. -/
def automaticFee (node : Node ν) : Except PyError Int := do
  let base ← node.baseFeePerGas
  let priority ← node.maxPriorityFee
  pure (node.maxFee base priority)

omit [DecidableEq ν] [Zero ν] in
theorem int_map_eq_ok {answer : Except PyError Int} {y : Value ν}
    (h : Value.int <$> answer = .ok y) : ∃ n, answer = .ok n ∧ y = .int n := by
  rcases answer with e | n
  · cases h
  · exact ⟨n, rfl, (Except.ok.inj h).symm⟩

omit [Zero ν] in
theorem eip1559_gas {priority fee : Value ν} {tx : Tx ν}
    (h : makeRawTxEip1559 node (eip1559Params a priority fee) = .ok tx) :
    (a.estimateGas = true →
      ∃ gas, estimatedGas node a = .ok gas ∧ tx.get? "gas" = some (.int gas)) ∧
    (a.estimateGas = false → tx.get? "gas" = a.gas.map Value.int) := by
  obtain ⟨base, -, hparam⟩ := makeRawTxEip1559_eq_ok h
  obtain ⟨mid, hmid, hnone, hsome⟩ := hparam (i := 7) rfl rfl
  constructor
  · intro hestimate
    obtain ⟨y, hy, hfield⟩ := hsome auto (if_pos hestimate)
    rw [paramValue_auto] at hy
    obtain ⟨gas, hgas, rfl⟩ := int_map_eq_ok hy
    refine ⟨gas, ?_, hfield⟩
    rw [estimatedGas, addParams_base 0 base (by simp [Eip1559.fields])]
    exact bind_eq_ok.mpr ⟨mid, hmid, hgas⟩
  · intro hestimate
    have hgas : (eip1559Params a priority fee).gas = a.gas.map Value.int :=
      if_neg (by simp [hestimate])
    rcases hgiven : a.gas with _ | gas
    · exact hnone (by rw [hgas, hgiven]; rfl)
    · obtain ⟨y, hy, hfield⟩ := hsome (.int gas) (by rw [hgas, hgiven]; rfl)
      rw [hfield, ← Except.ok.inj (paramValue_int.symm.trans hy)]
      rfl

omit [Zero ν] in
theorem eip1559_fee {tx : Tx ν} {fee : Int} {priority : Value ν}
    (h : makeRawTxEip1559 node (eip1559Params a priority (.int fee)) = .ok tx) :
    tx.get? "maxFeePerGas" = some (.int fee) := by
  obtain ⟨base, -, hparam⟩ := makeRawTxEip1559_eq_ok h
  obtain ⟨mid, -, -, hsome⟩ := hparam (i := 9) rfl rfl
  obtain ⟨y, hy, hfield⟩ := hsome _ rfl
  rw [hfield, ← Except.ok.inj (paramValue_int.symm.trans hy)]

omit [Zero ν] in
theorem eip1559_automaticFee {tx : Tx ν}
    (h : makeRawTxEip1559 node (eip1559Params a auto auto) = .ok tx) :
    ∃ fee, automaticFee node = .ok fee ∧ tx.get? "maxFeePerGas" = some (.int fee) := by
  obtain ⟨base, hbase, hparam⟩ := makeRawTxEip1559_eq_ok h
  obtain ⟨mid, hmid, -, hsome⟩ := hparam (i := 9) rfl rfl
  obtain ⟨y, hy, hfield⟩ := hsome _ rfl
  have hnodup : (fieldNames (((eip1559Params a auto auto).fields ++
      (eip1559Params a auto auto).fees).take 9)).Nodup := by
    rw [fieldNames, List.map_take, ← fieldNames, fieldNames_eip1559]
    decide
  -- the priority fee is there when the fee is asked for
  obtain ⟨before, -, -, hpriority⟩ := get?_addParams hmid hnodup (i := 8) rfl
  obtain ⟨z, hz, hpriorityField⟩ := hpriority _ rfl
  rw [caseSnakeToCamel_eq_key (p := eip1559Params a auto auto) (i := 8) rfl rfl] at hpriorityField
  obtain ⟨priority, hanswer, rfl⟩ := int_map_eq_ok (paramValue_auto.symm.trans hz)
  have hbase' : node.baseFeePerGas = .ok base := by
    rw [← hbase, baseFee, if_pos (.inl rfl)]
  have hauto : autoValue node a.from_.address base mid "max_fee_per_gas" =
      .ok (.int (node.maxFee base priority)) := by
    rw [autoValue, hpriorityField]
  refine ⟨node.maxFee base priority, ?_, ?_⟩
  · rw [automaticFee, hbase', hanswer]
    rfl
  · rw [hfield, ← Except.ok.inj (hauto.symm.trans (paramValue_auto.symm.trans hy))]

/-! ## What is as it was given -/

theorem filled_eip1559 {priority fee : Value ν} {tx : Tx ν}
    (h : makeRawTxEip1559 node (eip1559Params a priority fee) = .ok tx) : Filled node a tx := by
  obtain ⟨hfrom, hto, hvalue, hdata, hnonce, chainId, hchainId, hchainField⟩ := eip1559_fields h
  obtain ⟨hestimated, hgiven⟩ := eip1559_gas h
  refine ⟨hfrom, by rw [hto], by rw [hvalue], by rw [hdata], hnonce,
    ⟨chainId, hchainId, by rw [hchainField]⟩, ?_, ?_⟩
  · intro hzero hestimate
    rw [hgiven hestimate]
    rcases hgas : a.gas with _ | gas
    · rfl
    · obtain rfl : gas = 0 := by rwa [hgas] at hzero
      exact given_zero
  · intro hzero hestimate
    obtain ⟨gas, hgas, hfield⟩ := hestimated hestimate
    obtain ⟨asked, -, hanswer⟩ := bind_eq_ok.mp hgas
    exact ⟨asked, gas, hanswer, by rw [hfield]⟩

/-- No gas that is given is estimated, and no price that is given is left to the node; or the
node's answer is the same. -/
structure Kept (node : Node ν) (a : Arguments ν) : Prop where
  gas : a.estimateGas = true → ∀ gas, a.gas = some gas → gas ≠ 0 → estimatedGas node a = .ok gas
  price : a.gas = none → ∀ gasPrice, a.gasPrice = some gasPrice →
    automaticFee node = .ok gasPrice

omit [Zero ν] in
theorem eip1559Fees_of_absent (h : a.gas = none ∨ a.gasPrice = none) :
    eip1559Fees node a = .ok (auto, auto) := by
  rw [eip1559Fees]
  rcases hgasPrice : a.gasPrice with _ | gasPrice
  · rfl
  · rcases hgas : a.gas with _ | gas
    · rfl
    · rcases h with h | h
      · rw [hgas] at h
        cases h
      · rw [hgasPrice] at h
        cases h

omit [Zero ν] in
theorem eip1559Fees_of_given {gas gasPrice : Int} {priority fee : Value ν}
    (hgas : a.gas = some gas) (hgasPrice : a.gasPrice = some gasPrice)
    (h : eip1559Fees node a = .ok (priority, fee)) : fee = .int gasPrice := by
  rw [eip1559Fees, hgas, hgasPrice] at h
  obtain ⟨⟨low, high⟩, hparams, hfees⟩ := bind_eq_ok.mp h
  obtain ⟨base, -, hchecked⟩ := bind_eq_ok.mp hparams
  obtain ⟨-, rfl⟩ := Prod.mk.inj (pure_eq_ok.mp hfees)
  split at hchecked
  · rw [(Prod.mk.inj (pure_eq_ok.mp hchecked)).2]
  · cases hchecked

/-- The bound on the price is the one that is given, or the node's. -/
theorem eip1559_price {tx : Tx ν} (h : makeRawTx node a .eip1559 = .ok tx) {gasPrice : Int}
    (hgasPrice : a.gasPrice = some gasPrice) :
    (a.gas ≠ none → tx.get? "maxFeePerGas" = some (.int gasPrice)) ∧
    (a.gas = none → ∃ fee, automaticFee node = .ok fee ∧
      tx.get? "maxFeePerGas" = some (.int fee)) := by
  obtain ⟨⟨priority, fee⟩, hfees, hbuilt⟩ := bind_eq_ok.mp h
  constructor
  · intro hgas
    obtain ⟨gas, hgas⟩ := Option.ne_none_iff_exists'.mp hgas
    obtain rfl := eip1559Fees_of_given hgas hgasPrice hfees
    exact eip1559_fee hbuilt
  · intro hgas
    rw [eip1559Fees_of_absent (.inl hgas), Except.ok.injEq, Prod.mk.injEq] at hfees
    obtain ⟨rfl, rfl⟩ := hfees
    exact eip1559_automaticFee hbuilt

theorem honours_eip1559_iff {tx : Tx ν} (h : makeRawTx node a .eip1559 = .ok tx) :
    Honours node a .eip1559 tx ↔ Kept node a := by
  obtain ⟨⟨priority, fee⟩, -, hbuilt⟩ := bind_eq_ok.mp h
  have hbuilt : makeRawTxEip1559 node (eip1559Params a priority fee) = .ok tx := hbuilt
  obtain ⟨hestimated, hgiven⟩ := eip1559_gas hbuilt
  constructor
  · intro hhonours
    constructor
    · intro hestimate gas hgas hzero
      obtain ⟨answer, hanswer, hfield⟩ := hestimated hestimate
      have hsame := hfield.symm.trans (hhonours.gas gas hgas hzero)
      rw [hanswer, Value.int.inj (Option.some.inj hsame)]
    · intro hgas gasPrice hgasPrice
      obtain ⟨answer, hanswer, hfield⟩ := (eip1559_price h hgasPrice).2 hgas
      have hsame := hfield.symm.trans (hhonours.price gasPrice hgasPrice)
      rw [hanswer, Value.int.inj (Option.some.inj hsame)]
  · intro hkept
    refine ⟨filled_eip1559 hbuilt, ?_, ?_⟩
    · intro gas hgas hzero
      rcases hestimate : a.estimateGas with _ | _
      · rw [hgiven hestimate, hgas]
        rfl
      · obtain ⟨answer, hanswer, hfield⟩ := hestimated hestimate
        have hsame := hanswer.symm.trans (hkept.gas hestimate gas hgas hzero)
        rw [hfield, Except.ok.inj hsame]
    · intro gasPrice hgasPrice
      rw [priceField]
      by_cases hgas : a.gas = none
      · obtain ⟨answer, hanswer, hfield⟩ := (eip1559_price h hgasPrice).2 hgas
        have hsame := hanswer.symm.trans (hkept.price hgas gasPrice hgasPrice)
        rw [hfield, Except.ok.inj hsame]
      · exact (eip1559_price h hgasPrice).1 hgas

theorem filled_of_makeRawTx {t : TransactionType} {tx : Tx ν} (h : makeRawTx node a t = .ok tx) :
    Filled node a tx := by
  rcases t with _ | _
  · exact (honours_legacy h).filled
  · obtain ⟨fees, -, hbuilt⟩ := bind_eq_ok.mp h
    exact filled_eip1559 hbuilt

/-- The fields of every transaction but those of the fees and the type. -/
def SameFields (tx tx' : Tx ν) : Prop :=
  ∀ key ∈ ["from", "to", "value", "data", "nonce", "chainId", "gas"],
    given (tx.get? key) = given (tx'.get? key)

theorem sameFields_iff_gas {tx tx' : Tx ν} (h : Filled node a tx) (h' : Filled node a tx') :
    SameFields tx tx' ↔ given (tx.get? "gas") = given (tx'.get? "gas") := by
  obtain ⟨nonce, hnonce, hnonceField⟩ := h.nonce
  obtain ⟨nonce', hnonce', hnonceField'⟩ := h'.nonce
  obtain ⟨chainId, hchainId, hchainField⟩ := h.chainId
  obtain ⟨chainId', hchainId', hchainField'⟩ := h'.chainId
  obtain rfl := Except.ok.inj (hnonce.symm.trans hnonce')
  obtain rfl := Except.ok.inj (hchainId.symm.trans hchainId')
  simp only [SameFields, List.forall_mem_cons]
  refine ⟨fun hsame => hsame.2.2.2.2.2.2.1, fun hgas => ?_⟩
  exact ⟨by rw [h.sender, h'.sender], h.to_.trans h'.to_.symm, h.amount.trans h'.amount.symm,
    h.data.trans h'.data.symm, by rw [hnonceField, hnonceField'],
    hchainField.trans hchainField'.symm, hgas, by simp⟩

/-- No gas is estimated, or the estimation for EIP-1559 is what a legacy transaction has: the gas
that is given, or its own estimation. -/
def SameGas (node : Node ν) (a : Arguments ν) : Prop :=
  a.estimateGas = true → ∃ gas, estimatedGas node a = .ok gas ∧
    if a.gas.getD 0 = 0 then legacyEstimate node a = .ok gas else a.gas = some gas

/-- The gas of a legacy transaction. -/
theorem legacy_gas {tx : Tx ν} (h : makeRawTxLegacy node a = .ok tx) :
    ∃ gas, tx.get? "gas" = given (some (.int gas)) ∧
      if a.estimateGas = true ∧ a.gas.getD 0 = 0 then legacyEstimate node a = .ok gas
      else gas = a.gas.getD 0 := by
  obtain ⟨nonce, chainId, gasPrice, gas, hnonce, hchainId, hgasPrice, hgas, hfields⟩ :=
    makeRawTxLegacy_eq_ok h
  refine ⟨gas, hfields.2.2.2.2.2.2.2, ?_⟩
  rw [legacyGas] at hgas
  split
  · next hestimate =>
    rw [if_pos hestimate] at hgas
    rw [legacyEstimate, hnonce, hchainId, hgasPrice]
    exact hgas
  · next hgiven =>
    rw [if_neg hgiven] at hgas
    exact (Except.ok.inj hgas).symm

theorem given_gas_iff {tx tx' : Tx ν} (h : makeRawTx node a .legacy = .ok tx)
    (h' : makeRawTx node a .eip1559 = .ok tx') :
    given (tx.get? "gas") = given (tx'.get? "gas") ↔ SameGas node a := by
  obtain ⟨gas, hfield, hgas⟩ := legacy_gas h
  obtain ⟨⟨priority, fee⟩, -, hbuilt⟩ := bind_eq_ok.mp h'
  have hbuilt : makeRawTxEip1559 node (eip1559Params a priority fee) = .ok tx' := hbuilt
  obtain ⟨hestimated, hgiven⟩ := eip1559_gas hbuilt
  rw [hfield, given_given, SameGas]
  rcases hestimate : a.estimateGas with _ | _
  · rw [hestimate, if_neg (by simp)] at hgas
    rw [hgiven hestimate, hgas]
    refine ⟨fun _ hset => absurd hset (by simp), fun _ => ?_⟩
    rcases a.gas with _ | g
    · exact given_zero
    · rfl
  · obtain ⟨answer, hanswer, hfield'⟩ := hestimated hestimate
    rw [hfield', given_int_inj]
    by_cases hzero : a.gas.getD 0 = 0
    · rw [if_pos ⟨hestimate, hzero⟩] at hgas
      simp [hanswer, hzero, hgas]
    · rw [if_neg fun hboth => hzero hboth.2] at hgas
      rcases hg : a.gas with _ | g
      · exact absurd (by rw [hg]; rfl) hzero
      · rw [hg] at hzero hgas
        have hne : ¬(some g).getD 0 = 0 := hzero
        rw [hgas]
        simp only [hanswer, if_neg hne, Except.ok.injEq, Option.some.injEq, forall_const]
        exact ⟨fun heq => ⟨answer, rfl, heq⟩, fun ⟨gas, heq, hgas⟩ => hgas.trans heq.symm⟩

/-- A legacy transaction is as the arguments ask for, and one of EIP-1559 if and only if no gas is
estimated over the one that is given, and no price is given without a gas. The other fields are the
same in both, and so is the gas if and only if the estimations do not differ. -/
theorem makeRawTx_honours_iff {t : TransactionType} {tx : Tx ν} (h : makeRawTx node a t = .ok tx) :
    (Honours node a t tx ↔ (t = .eip1559 → Kept node a)) ∧
    ∀ t' tx', makeRawTx node a t' = .ok tx' → (SameFields tx tx' ↔ t = t' ∨ SameGas node a) := by
  constructor
  · rcases t with _ | _
    · simpa using honours_legacy h
    · simpa using honours_eip1559_iff h
  · intro t' tx' h'
    rw [sameFields_iff_gas (filled_of_makeRawTx h) (filled_of_makeRawTx h')]
    rcases t with _ | _ <;> rcases t' with _ | _
    · obtain rfl := Except.ok.inj (h.symm.trans h')
      simp
    · simpa using given_gas_iff h h'
    · rw [eq_comm]
      simpa using given_gas_iff h' h
    · obtain rfl := Except.ok.inj (h.symm.trans h')
      simp

def devnet : Node Int where
  chainId := .ok 245022926
  nonce _ := .ok 3
  gasPrice := .ok 100
  baseFeePerGas := .ok 10
  maxPriorityFee := .ok 1
  estimateGas _ := .ok 21000
  maxFee base priority := base * 11 / 10 + priority

/-- A transfer with its gas and price. -/
def transfer (estimateGas : Bool) : Arguments Int where
  from_ := .localAccount "0xa1"
  to_ := some (.text "0xb2")
  amount := some 7
  gas := some 50000
  gasPrice := some 40
  nonce := none
  chainId := none
  data := none
  estimateGas := estimateGas

theorem makeRawTx_honours_iff_transfer :
    ∃ tx tx', makeRawTx devnet (transfer false) .eip1559 = .ok tx ∧
      makeRawTx devnet (transfer false) .legacy = .ok tx' ∧
      Honours devnet (transfer false) .eip1559 tx ∧ SameFields tx tx' := by
  obtain ⟨tx, h⟩ : ∃ tx, makeRawTx devnet (transfer false) .eip1559 = .ok tx := ⟨_, rfl⟩
  obtain ⟨tx', h'⟩ : ∃ tx', makeRawTx devnet (transfer false) .legacy = .ok tx' := ⟨_, rfl⟩
  have hgiven : ¬ (transfer false).estimateGas = true := by decide
  obtain ⟨hhonours, hsame⟩ := makeRawTx_honours_iff h
  refine ⟨tx, tx', h, h', hhonours.mpr fun _ => ⟨?_, ?_⟩, (hsame .legacy tx' h').mpr (.inr ?_)⟩
  · exact fun hestimate => absurd hestimate hgiven
  · intro hgas
    cases hgas
  · exact fun hestimate => absurd hestimate hgiven

/-- The gas of a transfer is replaced by the estimation. -/
theorem makeRawTx_estimated :
    ∃ tx, makeRawTx devnet (transfer true) .eip1559 = .ok tx ∧
      ¬Honours devnet (transfer true) .eip1559 tx := by
  obtain ⟨tx, h⟩ : ∃ tx, makeRawTx devnet (transfer true) .eip1559 = .ok tx := ⟨_, rfl⟩
  refine ⟨tx, h, fun hhonours => ?_⟩
  have hgas := ((honours_eip1559_iff h).mp hhonours).gas rfl 50000 rfl (by decide)
  have hanswer : estimatedGas devnet (transfer true) = .ok 21000 := rfl
  exact absurd (Except.ok.inj (hanswer.symm.trans hgas)) (by decide)

end NeonTests.Web3Client
