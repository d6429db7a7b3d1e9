import Hookemon.Signing.EvmTransactions

/-! # What the text of a description determines

The parts of two descriptions that are compared by their texts agree, up to the sign of a
number of decimals that is zero.
-/

namespace Hookemon.Signing

open Hookemon.Core Hookemon.Js Hookemon.Runner

/-! ## Distinct keys -/

theorem distinctKeys_of_keys {fs : Fields} (keys : List Text) (hkeys : fs.map Prod.fst = keys)
    (hnodup : keys.Nodup) (h : ∀ f ∈ fs, f.2.distinctKeys) : (Value.object fs).distinctKeys :=
  distinctKeys_object.mpr ⟨hkeys ▸ hnodup, h⟩

@[simp] theorem distinctKeys_string (s : Text) : (Value.string s).distinctKeys = true := rfl

@[simp] theorem distinctKeys_number (x : Number) : (Value.number x).distinctKeys = true := rfl

@[simp] theorem distinctKeys_boolean (b : Bool) : (Value.boolean b).distinctKeys = true := rfl

theorem optionalText_distinct (s : Option Text) : (optionalText s).distinctKeys := by
  cases s <;> rfl

theorem textArray_distinct (ts : List Text) : (textArray ts).distinctKeys := by
  refine distinctKeys_array.mpr fun v hv => ?_
  obtain ⟨t, -, rfl⟩ := List.mem_map.mp hv
  rfl

theorem AssetAmount.distinct (a : AssetAmount) : a.value.distinctKeys := by
  refine distinctKeys_of_keys (["chainId", "assetId", "decimals", "amountAtomic"].map text)
    rfl (by decide) ?_
  simp

theorem optionalAmount_distinct (a : Option AssetAmount) : (optionalAmount a).distinctKeys := by
  cases a with
  | none => rfl
  | some a => exact a.distinct

theorem AccountMeta.distinct (a : AccountMeta) : a.value.distinctKeys := by
  refine distinctKeys_of_keys (["address", "isSigner", "isWritable"].map text)
    rfl (by decide) ?_
  simp

theorem Instruction.distinct (i : Instruction) : i.value.distinctKeys := by
  have haccounts : (Value.array (i.accounts.map AccountMeta.value)).distinctKeys := by
    refine distinctKeys_array.mpr fun v hv => ?_
    obtain ⟨a, -, rfl⟩ := List.mem_map.mp hv
    exact a.distinct
  refine distinctKeys_of_keys (["kind", "programId", "instructionId", "data", "accounts",
    "source", "destination", "mint", "token", "amount", "nativeValue", "computeUnitLimit",
    "priorityFee"].map text) rfl (by decide) ?_
  simp [optionalText_distinct, optionalAmount_distinct, haccounts]

theorem instructions_distinct (is : List Instruction) :
    (Value.array (is.map Instruction.value)).distinctKeys := by
  refine distinctKeys_array.mpr fun v hv => ?_
  obtain ⟨i, -, rfl⟩ := List.mem_map.mp hv
  exact i.distinct

theorem Gas.distinct (g : Gas) : g.value.distinctKeys := by
  cases g with
  | evm limit gasPrice maxFeePerGas maxPriorityFeePerGas =>
    refine distinctKeys_of_keys
      (["limit", "gasPrice", "maxFeePerGas", "maxPriorityFeePerGas"].map text)
      rfl (by decide) ?_
    simp [optionalText_distinct, optionalAmount_distinct]
  | solana computeUnitLimit pricePerComputeUnit =>
    refine distinctKeys_of_keys (["computeUnitLimit", "pricePerComputeUnit"].map text)
      rfl (by decide) ?_
    simp [optionalText_distinct, optionalAmount_distinct]

theorem Description.distinct {d : Description} (h : d.deadline.distinctKeys) :
    d.value.distinctKeys := by
  refine distinctKeys_of_keys (["schema", "family", "format", "chainId", "nonce",
    "programIds", "addressLookupTables", "target", "selector", "source", "destination", "mint",
    "token", "amount", "nativeValue", "gas", "feePayer", "requiredSigners", "coSigners",
    "instructions", "extraInstructions", "blockhash", "deadline", "priorityFee"].map text)
    rfl (by decide) ?_
  simp [optionalText_distinct, optionalAmount_distinct, textArray_distinct,
    instructions_distinct, Gas.distinct, h]

/-! ## Parts with one text -/

theorem optionalText_inj {s t : Option Text}
    (h : shownData (optionalText s) = shownData (optionalText t)) : s = t := by
  cases s <;> cases t
  · rfl
  · cases h
  · cases h
  · exact congrArg some (Value.string.inj h)

/-- Arrays that show the same data do so item by item. -/
theorem items_shown {α : Type} {f : α → Value} {as bs : List α}
    (h : shownData (.array (as.map f)) = shownData (.array (bs.map f))) :
    List.Forall₂ (fun a b => shownData (f a) = shownData (f b)) as bs := by
  rw [shownData_array, shownData_array, List.map_map, List.map_map] at h
  have hitems := List.forall₂_eq_eq_eq ▸ Value.array.inj h
  rwa [List.forall₂_map_left_iff, List.forall₂_map_right_iff] at hitems

theorem forall₂_eq {α : Type} {as bs : List α} (h : List.Forall₂ (fun a b => a = b) as bs) :
    as = bs :=
  List.forall₂_eq_eq_eq ▸ h

theorem textArray_inj {ss ts : List Text} (h : shownData (textArray ss) = shownData (textArray ts)) :
    ss = ts :=
  forall₂_eq ((items_shown h).imp fun _ _ => Value.string.inj)

/-- One amount up to the sign of its decimals. -/
structure AssetAmount.Same (a b : AssetAmount) : Prop where
  chainId : a.chainId = b.chainId
  assetId : a.assetId = b.assetId
  decimals : unsigned (.number a.decimals) = unsigned (.number b.decimals)
  amountAtomic : a.amountAtomic = b.amountAtomic

theorem AssetAmount.same_of_shown {a b : AssetAmount}
    (h : shownData a.value = shownData b.value) : a.Same b := by
  have hget := shownData_property a.distinct b.distinct h
  have hnumber : ∀ x : Number, shownData (.number x) = unsigned (.number x) := by
    intro x
    cases x <;> rfl
  have hdecimals : shownData (.number a.decimals) = shownData (.number b.decimals) :=
    hget (text "decimals")
  rw [hnumber, hnumber] at hdecimals
  exact ⟨Value.string.inj (hget (text "chainId")), Value.string.inj (hget (text "assetId")),
    hdecimals, Value.string.inj (hget (text "amountAtomic"))⟩

theorem optionalAmount_atomic {a b : Option AssetAmount}
    (h : shownData (optionalAmount a) = shownData (optionalAmount b)) :
    a.map AssetAmount.amountAtomic = b.map AssetAmount.amountAtomic := by
  cases a with
  | none =>
    cases b with
    | none => rfl
    | some b =>
      rw [optionalAmount, optionalAmount, Option.elim, Option.elim, AssetAmount.value,
        shownData_object] at h
      cases h
  | some a =>
    cases b with
    | none =>
      rw [optionalAmount, optionalAmount, Option.elim, Option.elim, AssetAmount.value,
        shownData_object] at h
      cases h
    | some b => exact congrArg some (AssetAmount.same_of_shown h).amountAtomic

theorem AccountMeta.eq_of_shown {a b : AccountMeta} (h : shownData a.value = shownData b.value) :
    a = b := by
  have hget := shownData_property a.distinct b.distinct h
  have haddress : a.address = b.address := Value.string.inj (hget (text "address"))
  have hsigner : a.isSigner = b.isSigner := Value.boolean.inj (hget (text "isSigner"))
  have hwritable : a.isWritable = b.isWritable := Value.boolean.inj (hget (text "isWritable"))
  cases a
  cases b
  simp_all

/-- What an instruction executes: its program, its accounts and its data. -/
structure Instruction.Runs (i j : Instruction) : Prop where
  programId : i.programId = j.programId
  accounts : i.accounts = j.accounts
  data : i.data = j.data

theorem Instruction.runs_of_shown {i j : Instruction} (h : shownData i.value = shownData j.value) :
    i.Runs j := by
  have hget := shownData_property i.distinct j.distinct h
  exact ⟨Value.string.inj (hget (text "programId")),
    forall₂_eq ((items_shown (hget (text "accounts"))).imp fun _ _ => AccountMeta.eq_of_shown),
    Value.string.inj (hget (text "data"))⟩

/-- The parts of a description that say what is executed. -/
structure Description.Executes (d e : Description) : Prop where
  family : d.family = e.family
  chainId : d.chainId = e.chainId
  nonce : d.nonce = e.nonce
  target : d.target = e.target
  source : d.source = e.source
  nativeValue : d.nativeValue.map AssetAmount.amountAtomic
    = e.nativeValue.map AssetAmount.amountAtomic
  gas : shownData d.gas.value = shownData e.gas.value
  requiredSigners : d.requiredSigners = e.requiredSigners
  instructions : List.Forall₂ Instruction.Runs d.instructions e.instructions
  blockhash : d.blockhash = e.blockhash

theorem Family.name_inj {f g : Family} (h : f.name = g.name) : f = g := by
  cases f <;> cases g
  · rfl
  · cases h
  · cases h
  · rfl

theorem Description.executes_of_shown {d e : Description} (hd : d.deadline.distinctKeys)
    (he : e.deadline.distinctKeys) (h : shownData d.value = shownData e.value) : d.Executes e := by
  have hget := shownData_property (Description.distinct hd) (Description.distinct he) h
  exact {
    family := Family.name_inj (Value.string.inj (hget (text "family")))
    chainId := Value.string.inj (hget (text "chainId"))
    nonce := optionalText_inj (hget (text "nonce"))
    target := optionalText_inj (hget (text "target"))
    source := optionalText_inj (hget (text "source"))
    nativeValue := optionalAmount_atomic (hget (text "nativeValue"))
    gas := hget (text "gas")
    requiredSigners := textArray_inj (hget (text "requiredSigners"))
    instructions := (items_shown (hget (text "instructions"))).imp
      fun _ _ => Instruction.runs_of_shown
    blockhash := optionalText_inj (hget (text "blockhash")) }

/-- The gas of two descriptions with one text: the limit and every fee. -/
theorem Gas.evm_of_shown {limit limit' : Option Text}
    {gasPrice gasPrice' maxFee maxFee' maxPriority maxPriority' : Option AssetAmount}
    (h : shownData (Gas.evm limit gasPrice maxFee maxPriority).value
      = shownData (Gas.evm limit' gasPrice' maxFee' maxPriority').value) :
    limit = limit' ∧
      gasPrice.map AssetAmount.amountAtomic = gasPrice'.map AssetAmount.amountAtomic ∧
      maxFee.map AssetAmount.amountAtomic = maxFee'.map AssetAmount.amountAtomic ∧
      maxPriority.map AssetAmount.amountAtomic = maxPriority'.map AssetAmount.amountAtomic := by
  have hget := shownData_property (Gas.distinct _) (Gas.distinct _) h
  exact ⟨optionalText_inj (hget (text "limit")), optionalAmount_atomic (hget (text "gasPrice")),
    optionalAmount_atomic (hget (text "maxFeePerGas")),
    optionalAmount_atomic (hget (text "maxPriorityFeePerGas"))⟩

end Hookemon.Signing
