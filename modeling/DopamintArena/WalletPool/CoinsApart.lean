import DopamintArena.WalletPool.Fund

/-!
Which coins a funding transaction uses for what. The gas payment is the whole
selection of SUI coins, and all of them but the first are merged into the gas
coin once more, as inputs. So a coin is used twice as soon as the gas takes more
than one coin, and also when the funded coin type is SUI under another spelling:
then the token coins are chosen from the same coins as the gas.
-/

namespace DopamintArena.WalletPool

open Foundation TransactionBuilder

/-! ### Selecting coins -/

section Select

variable {coins selected : List Coin} {amount : UInt64}

def balanceSum (coins : List Coin) : Nat := (coins.map fun c => c.balance.toNat).sum

theorem checkedAdd_eq_some {a b c : UInt64} (h : checkedAdd a b = some c) :
    c.toNat = a.toNat + b.toNat := by
  unfold checkedAdd at h
  split at h
  · next hlt =>
      cases h
      rw [UInt64.toNat_add, Nat.mod_eq_of_lt hlt]
  · cases h

theorem checkedMul_eq_some {a b c : UInt64} (h : checkedMul a b = some c) :
    c.toNat = a.toNat * b.toNat := by
  unfold checkedMul at h
  split at h
  · next hlt =>
      cases h
      rw [UInt64.toNat_mul, Nat.mod_eq_of_lt hlt]
  · cases h

theorem selectLoop_spec {sum sum' : UInt64} {before : List Coin}
    (h : selectLoop amount coins sum before = some (sum', selected)) :
    ∃ taken, taken <+: coins ∧ selected = before ++ taken ∧
      sum'.toNat = sum.toNat + balanceSum taken := by
  induction coins generalizing sum before with
  | nil =>
    cases h
    exact ⟨[], List.prefix_rfl, by simp, by simp [balanceSum]⟩
  | cons coin _ ih =>
    simp only [selectLoop] at h
    split at h
    · cases h
      exact ⟨[], List.nil_prefix, by simp, by simp [balanceSum]⟩
    · obtain ⟨_, hadd, h⟩ := Option.bind_eq_some_iff.mp h
      obtain ⟨taken, hfirst, rfl, hsum⟩ := ih h
      refine ⟨coin :: taken, List.cons_prefix_cons.mpr ⟨rfl, hfirst⟩, by simp, ?_⟩
      have hnext := checkedAdd_eq_some hadd
      simp only [balanceSum, List.map_cons, List.sum_cons] at hsum ⊢
      omega

theorem selectCoinsForAmount_spec (h : selectCoinsForAmount coins amount = some selected) :
    selected <+: sortDescending coins ∧ amount.toNat ≤ balanceSum selected := by
  obtain ⟨⟨_, _⟩, hloop, h⟩ := Option.bind_eq_some_iff.mp h
  obtain ⟨_, hfirst, rfl, hsum⟩ := selectLoop_spec hloop
  simp only at h
  split at h
  · next henough =>
      cases h
      rw [UInt64.le_iff_toNat_le] at henough
      simp only [UInt64.toNat_zero, Nat.zero_add] at hsum
      exact ⟨hfirst, by omega⟩
  · cases h

theorem perm_sortDescending (coins : List Coin) : (sortDescending coins).Perm coins :=
  List.perm_insertionSort _ _

theorem le_first_of_sortDescending {first : Coin} {rest : List Coin}
    (h : sortDescending coins = first :: rest) {c : Coin} (hc : c ∈ coins) :
    c.balance ≤ first.balance := by
  have hsorted := List.pairwise_insertionSort (fun c d : Coin => d.balance ≤ c.balance) coins
  change (sortDescending coins).Pairwise _ at hsorted
  have hmem : c ∈ sortDescending coins := (perm_sortDescending coins).mem_iff.mpr hc
  rw [h] at hsorted hmem
  rcases List.mem_cons.mp hmem with rfl | hmem
  · exact UInt64.le_refl _
  · exact List.rel_of_pairwise_cons hsorted hmem

/-- A selection has a first coin, the largest one, and it is the only one exactly when some
coin covers the amount alone. -/
theorem exists_first_of_select (hpos : 0 < amount)
    (h : selectCoinsForAmount coins amount = some selected) :
    ∃ first others, selected = first :: others ∧ (sortDescending coins).head? = some first ∧
      (others = [] ↔ ∃ c ∈ coins, amount ≤ c.balance) := by
  obtain ⟨⟨_, taken⟩, hloop, h⟩ := Option.bind_eq_some_iff.mp h
  simp only at h
  split at h
  · next henough =>
      cases h
      cases hsorted : sortDescending coins with
      | nil =>
        rw [hsorted] at hloop
        cases hloop
        exact absurd henough (UInt64.not_le.mpr hpos)
      | cons first rest =>
        have hfirst : first ∈ coins := by
          rw [← (perm_sortDescending coins).mem_iff, hsorted]
          exact List.mem_cons_self
        rw [hsorted] at hloop
        simp only [selectLoop, UInt64.not_le.mpr hpos, if_false] at hloop
        obtain ⟨next, hadd, hloop⟩ := Option.bind_eq_some_iff.mp hloop
        have hnext : next = first.balance := by
          apply UInt64.toNat_inj.mp
          simpa using checkedAdd_eq_some hadd
        subst hnext
        by_cases halone : amount ≤ first.balance
        · have hselected : selected = [first] := by
            cases rest with
            | nil =>
              cases hloop
              rfl
            | cons =>
              simp only [selectLoop, halone, if_true] at hloop
              cases hloop
              rfl
          exact ⟨first, [], hselected, rfl, iff_of_true rfl ⟨first, hfirst, halone⟩⟩
        · have hnone : ¬∃ c ∈ coins, amount ≤ c.balance := by
            rintro ⟨c, hc, henough⟩
            exact halone (UInt64.le_trans henough (le_first_of_sortDescending hsorted hc))
          cases rest with
          | nil =>
            cases hloop
            exact absurd henough halone
          | cons c =>
            simp only [selectLoop, halone, if_false] at hloop
            obtain ⟨_, -, hloop⟩ := Option.bind_eq_some_iff.mp hloop
            obtain ⟨taken, -, rfl, -⟩ := selectLoop_spec hloop
            exact ⟨first, c :: taken, by simp, rfl, iff_of_false (by simp) hnone⟩
  · cases h

end Select

/-! ### What a transaction uses -/

def CallArg.objectId? : CallArg → Option Bytes32
  | .object input => some input.id
  | .amount _ | .address _ => none

namespace Command

def arguments : Command → List Argument
  | .mergeCoins target sources => target :: sources
  | .splitCoins coin amounts => coin :: amounts
  | .transferObjects objects address => objects ++ [address]

/-- The arguments that the command merges into `arg`. -/
def mergedInto (arg : Argument) : Command → List Argument
  | .mergeCoins target sources => if target = arg then sources else []
  | .splitCoins _ _ | .transferObjects _ _ => []

end Command

namespace TransactionBuilder

variable {tx tx' tx'' : TransactionBuilder}

def objectIds (tx : TransactionBuilder) : List Bytes32 := tx.inputs.filterMap CallArg.objectId?

/-- The object that an argument names. -/
def resolve (tx : TransactionBuilder) : Argument → Option Bytes32
  | .input index => tx.inputs[index]?.bind CallArg.objectId?
  | .gas | .result _ _ => none

/-- The objects that some command takes. -/
def usedIds (tx : TransactionBuilder) : List Bytes32 :=
  tx.commands.flatMap fun command => command.arguments.filterMap tx.resolve

/-- The objects a coin argument is made of: for the gas coin the gas payment, and whatever is
merged into it. -/
def backing (tx : TransactionBuilder) (arg : Argument) : List Bytes32 :=
  (if arg = .gas then tx.gasObjects.map ObjectInput.id else (tx.resolve arg).toList) ++
    tx.commands.flatMap fun command => (command.mergedInto arg).filterMap tx.resolve

/-- Inputs and commands are only added. -/
structure Grows (tx tx' : TransactionBuilder) : Prop where
  gas : tx'.gasObjects = tx.gasObjects
  inputs : tx.inputs <+: tx'.inputs
  commands : tx.commands <+: tx'.commands

theorem Grows.refl (tx : TransactionBuilder) : tx.Grows tx :=
  ⟨rfl, List.prefix_rfl, List.prefix_rfl⟩

theorem Grows.trans (h : tx.Grows tx') (h' : tx'.Grows tx'') : tx.Grows tx'' :=
  ⟨h'.gas.trans h.gas, h.inputs.trans h'.inputs, h.commands.trans h'.commands⟩

theorem Grows.addCommand (tx : TransactionBuilder) (command : Command) :
    tx.Grows (tx.addCommand command) :=
  ⟨rfl, List.prefix_rfl, List.prefix_append _ _⟩

theorem Grows.resolve (h : tx.Grows tx') {arg : Argument} {id : Bytes32}
    (hid : tx.resolve arg = some id) : tx'.resolve arg = some id := by
  cases arg with
  | gas => cases hid
  | result => cases hid
  | input index =>
    simp only [TransactionBuilder.resolve] at hid ⊢
    obtain ⟨_, harg, hid⟩ := Option.bind_eq_some_iff.mp hid
    obtain ⟨_, hrest⟩ := h.inputs
    have hlt : index < tx.inputs.length := (List.getElem?_eq_some_iff.mp harg).1
    rw [← hrest, List.getElem?_append_left hlt, harg]
    exact hid

theorem Grows.flatMap_subset (h : tx.Grows tx') (args : Command → List Argument) :
    (tx.commands.flatMap fun c => (args c).filterMap tx.resolve) ⊆
      tx'.commands.flatMap fun c => (args c).filterMap tx'.resolve := by
  intro id hid
  obtain ⟨command, hcommand, hid⟩ := List.mem_flatMap.mp hid
  obtain ⟨arg, harg, hid⟩ := List.mem_filterMap.mp hid
  exact List.mem_flatMap.mpr ⟨command, h.commands.subset hcommand,
    List.mem_filterMap.mpr ⟨arg, harg, h.resolve hid⟩⟩

theorem Grows.usedIds (h : tx.Grows tx') : tx.usedIds ⊆ tx'.usedIds :=
  h.flatMap_subset Command.arguments

theorem Grows.backing (h : tx.Grows tx') (arg : Argument) : tx.backing arg ⊆ tx'.backing arg := by
  apply List.append_subset.mpr
  constructor
  · apply List.subset_append_of_subset_left
    split
    · rw [h.gas]
      exact List.Subset.refl _
    · intro id hid
      rw [Option.mem_toList] at hid ⊢
      exact h.resolve hid
  · exact List.subset_append_of_subset_right _ (h.flatMap_subset (Command.mergedInto arg))

theorem usedIds_subset (tx : TransactionBuilder) : tx.usedIds ⊆ tx.objectIds := by
  intro id hid
  obtain ⟨_, -, hid⟩ := List.mem_flatMap.mp hid
  obtain ⟨arg, -, hid⟩ := List.mem_filterMap.mp hid
  cases arg with
  | gas => cases hid
  | result => cases hid
  | input =>
    obtain ⟨arg, harg, hid⟩ := Option.bind_eq_some_iff.mp hid
    exact List.mem_filterMap.mpr ⟨arg, List.mem_of_getElem? harg, hid⟩

theorem mem_usedIds {command : Command} (hcommand : command ∈ tx.commands) {arg : Argument}
    (harg : arg ∈ command.arguments) {id : Bytes32} (hid : tx.resolve arg = some id) :
    id ∈ tx.usedIds :=
  List.mem_flatMap.mpr ⟨command, hcommand, List.mem_filterMap.mpr ⟨arg, harg, hid⟩⟩

theorem addInputs_snd (args : List CallArg) :
    (tx.addInputs args).2 = { tx with inputs := tx.inputs ++ args } := by
  induction args generalizing tx with
  | nil => simp [addInputs]
  | cons _ _ ih => simp [addInputs, addInput, ih]

theorem addInputs_fst (tx : TransactionBuilder) (args : List CallArg) :
    (tx.addInputs args).1.map (tx.addInputs args).2.resolve = args.map CallArg.objectId? := by
  induction args generalizing tx with
  | nil => rfl
  | cons _ _ ih =>
    simp only [addInputs, List.map_cons, List.cons.injEq]
    refine ⟨?_, ih _⟩
    simp [addInput, addInputs_snd, resolve]

theorem Grows.addInputs (args : List CallArg) : tx.Grows (tx.addInputs args).2 := by
  rw [addInputs_snd]
  exact ⟨rfl, List.prefix_append _ _, List.prefix_rfl⟩

theorem objectIds_addInputs (tx : TransactionBuilder) (args : List CallArg) :
    (tx.addInputs args).2.objectIds = tx.objectIds ++ args.filterMap CallArg.objectId? := by
  simp [objectIds, addInputs_snd]

/-- The transaction splits no coin yet. -/
def Unsplit (tx : TransactionBuilder) : Prop :=
  ∀ coin amounts, Command.splitCoins coin amounts ∉ tx.commands

end TransactionBuilder

/-! ### The steps of a funding -/

section Steps

variable {sdk : Sdk} {tx tx' : TransactionBuilder}

def coinId (sdk : Sdk) (c : Coin) : Except String Bytes32 := sdk.addressFromHex c.objectId

theorem coinToObjectInput_id {c : Coin} {o : ObjectInput}
    (h : coinToObjectInput sdk c = .ok o) : coinId sdk c = .ok o.id := by
  simp only [coinToObjectInput, objectIdFromStr, invalid, returned, mapError_ok_iff] at h
  obtain ⟨_, hid, _, -, rfl⟩ := h
  exact hid

theorem map_id_of_mapM {f : Coin → Except Error ObjectInput}
    (hf : ∀ c o, f c = .ok o → coinId sdk c = .ok o.id) {coins : List Coin}
    {inputs : List ObjectInput} (h : coins.mapM f = .ok inputs) :
    coins.map (coinId sdk) = (inputs.map ObjectInput.id).map .ok := by
  induction coins generalizing inputs with
  | nil =>
    cases h
    rfl
  | cons c _ ih =>
    simp only [List.mapM_cons, returned] at h
    obtain ⟨o, ho, _, hlater, rfl⟩ := h
    simp [hf c o ho, ih hlater]

theorem addGasObjectsFromCoins_spec {coins : List Coin}
    (h : addGasObjectsFromCoins sdk tx coins = .ok tx') :
    ∃ inputs, tx' = tx.addGasObjects inputs ∧
      coins.map (coinId sdk) = (inputs.map ObjectInput.id).map .ok := by
  simp only [addGasObjectsFromCoins, returned] at h
  obtain ⟨inputs, hinputs, rfl⟩ := h
  exact ⟨inputs, rfl, map_id_of_mapM (fun _ _ => coinToObjectInput_id) hinputs⟩

/-- A merge makes every source an input, takes it, and puts it behind the target. -/
theorem addMergeCommandIfNeeded_spec {target : Argument} {sources : List Coin}
    (h : addMergeCommandIfNeeded sdk tx target sources = .ok tx') :
    tx.Grows tx' ∧ (tx.Unsplit → tx'.Unsplit) ∧
      ∃ ids, sources.map (coinId sdk) = ids.map .ok ∧ tx'.objectIds = tx.objectIds ++ ids ∧
        ids ⊆ tx'.usedIds ∧ ids ⊆ tx'.backing target := by
  unfold addMergeCommandIfNeeded at h
  split at h
  · next hempty =>
      cases h
      rw [List.isEmpty_iff] at hempty
      subst hempty
      exact ⟨.refl tx, id, [], rfl, by simp, List.nil_subset _, List.nil_subset _⟩
  · simp only [returned] at h
    obtain ⟨inputs, hinputs, rfl⟩ := h
    have hids : sources.map (coinId sdk) = (inputs.map ObjectInput.id).map .ok :=
      map_id_of_mapM (fun _ _ ho => coinToObjectInput_id (mapError_ok_iff.mp ho)) hinputs
    have hobjects : ∀ l : List ObjectInput,
        (l.map CallArg.object).filterMap CallArg.objectId? = l.map ObjectInput.id := by
      intro l
      induction l with
      | nil => rfl
      | cons _ _ ih => simp [CallArg.objectId?, ih]
    -- the arguments of the merge resolve to the ids of the sources
    have hargs : ∀ id ∈ inputs.map ObjectInput.id,
        ∃ arg ∈ (tx.addInputs (inputs.map .object)).1,
          (tx.addInputs (inputs.map .object)).2.resolve arg = some id := by
      intro id hid
      have hmem : some id ∈ (inputs.map CallArg.object).map CallArg.objectId? := by
        obtain ⟨_, ho, rfl⟩ := List.mem_map.mp hid
        exact List.mem_map.mpr ⟨_, List.mem_map_of_mem ho, rfl⟩
      rw [← tx.addInputs_fst, List.mem_map] at hmem
      exact hmem
    refine ⟨(Grows.addInputs _).trans (.addCommand _ _), ?_,
      inputs.map ObjectInput.id, hids, ?_, ?_, ?_⟩
    · intro hunsplit coin amounts hmem
      simp only [mergeCoins, addCommand,
        addInputs_snd, List.mem_append, List.mem_singleton, reduceCtorEq,
        or_false] at hmem
      exact hunsplit coin amounts hmem
    · have hadded := tx.objectIds_addInputs (inputs.map .object)
      rw [hobjects] at hadded
      exact hadded
    · intro id hid
      obtain ⟨arg, harg, hresolve⟩ := hargs id hid
      exact mem_usedIds
        (List.mem_append_right _ (List.mem_singleton.mpr rfl))
        (List.mem_cons_of_mem _ harg) hresolve
    · intro id hid
      obtain ⟨arg, harg, hresolve⟩ := hargs id hid
      refine List.mem_append_right _ (List.mem_flatMap.mpr ⟨_, List.mem_append_right _
        (List.mem_singleton.mpr rfl), List.mem_filterMap.mpr ⟨arg, ?_, hresolve⟩⟩)
      simpa [Command.mergedInto] using harg

/-- The coins are in place: the gas payment, the inputs, and what the coin to split is made
of. Without token coins this is the gas coin itself. -/
structure Prepared (sdk : Sdk) (gas tokens : List Coin) (coinArg : Argument)
    (tx : TransactionBuilder) : Prop where
  payment : gas.map (coinId sdk) = (tx.gasObjects.map ObjectInput.id).map .ok
  objects : (gas.tail ++ tokens).map (coinId sdk) = tx.objectIds.map .ok
  merged : ∀ c ∈ gas.tail, ∃ id ∈ tx.usedIds, coinId sdk c = .ok id
  drawn : ∀ c ∈ (if coinArg = .gas then gas else tokens),
    ∃ id ∈ tx.backing coinArg, coinId sdk c = .ok id
  target : coinArg = .gas ∧ tokens = [] ∨
    coinArg ≠ .gas ∧ ∃ c others id, tokens = c :: others ∧ coinId sdk c = .ok id ∧
      tx.resolve coinArg = some id
  unsplit : tx.Unsplit

theorem exists_mem_of_map_eq {coins : List Coin} {ids : List Bytes32}
    (h : coins.map (coinId sdk) = ids.map .ok) {c : Coin} (hc : c ∈ coins) :
    ∃ id ∈ ids, coinId sdk c = .ok id := by
  have hmem := List.mem_map_of_mem (f := coinId sdk) hc
  rw [h, List.mem_map] at hmem
  obtain ⟨id, hid, heq⟩ := hmem
  exact ⟨id, hid, heq.symm⟩

theorem okOr_ok_iff {α : Type} {value : Option α} {error : Error} {a : α} :
    okOr value error = .ok a ↔ value = some a := by
  cases value <;> simp [okOr]

/-- The gas payment and the merge behind it, on a fresh transaction. -/
theorem gas_prepared {gas : List Coin} {mid : TransactionBuilder} (hfresh : tx.gasObjects = [])
    (hinputs : tx.inputs = []) (hcommands : tx.commands = [])
    (hpay : addGasObjectsFromCoins sdk tx gas = .ok mid)
    (hmerge : addMergeCommandIfNeeded sdk mid .gas gas.tail = .ok tx') :
    Prepared sdk gas [] .gas tx' := by
  obtain ⟨inputs, rfl, hids⟩ := addGasObjectsFromCoins_spec hpay
  obtain ⟨hgrows, hunsplit, _, htail, hobjects, hused, -⟩ := addMergeCommandIfNeeded_spec hmerge
  have hpayment : tx'.gasObjects = inputs := by
    rw [hgrows.gas]
    simp [addGasObjects, hfresh]
  have hnone : (tx.addGasObjects inputs).objectIds = [] := by
    simp [objectIds, addGasObjects, hinputs]
  rw [hnone, List.nil_append] at hobjects
  refine ⟨by rw [hpayment, hids], by rw [hobjects, List.append_nil, htail], ?_, ?_,
    .inl ⟨rfl, rfl⟩, ?_⟩
  · intro c hc
    obtain ⟨id, hid, heq⟩ := exists_mem_of_map_eq htail hc
    exact ⟨id, hused hid, heq⟩
  · intro c hc
    obtain ⟨id, hid, heq⟩ := exists_mem_of_map_eq hids (by simpa using hc)
    refine ⟨id, List.mem_append_left _ ?_, heq⟩
    rw [if_pos rfl, hpayment]
    exact hid
  · apply hunsplit
    intro coin amounts hmem
    rw [show (tx.addGasObjects inputs).commands = [] from hcommands] at hmem
    cases hmem

/-- The token coins behind the gas. -/
theorem Prepared.tokens {gas others : List Coin} {first : Coin} {input : ObjectInput}
    (h : Prepared sdk gas [] .gas tx) (hfirst : coinToObjectInput sdk first = .ok input)
    (hmerge : addMergeCommandIfNeeded sdk (tx.addInput (.object input)).2
      (tx.addInput (.object input)).1 others = .ok tx') :
    Prepared sdk gas (first :: others) (tx.addInput (.object input)).1 tx' := by
  obtain ⟨hgrows, hunsplit, _, hothers, hobjects, -, hbacking⟩ :=
    addMergeCommandIfNeeded_spec hmerge
  have hid := coinToObjectInput_id hfirst
  have hadded : tx.Grows (tx.addInput (.object input)).2 :=
    ⟨rfl, List.prefix_append _ _, List.prefix_rfl⟩
  have hall := hadded.trans hgrows
  have hresolve : tx'.resolve (tx.addInput (.object input)).1 = some input.id := by
    apply hgrows.resolve
    simp [addInput, resolve, CallArg.objectId?]
  have hinput : (tx.addInput (.object input)).2.objectIds = tx.objectIds ++ [input.id] := by
    simp [objectIds, addInput, CallArg.objectId?]
  have hgas : (tx.addInput (.object input)).1 ≠ .gas := by
    simp [addInput]
  refine ⟨by rw [h.payment, hall.gas], ?_, ?_, ?_, .inr ⟨hgas, first, others, _, rfl, hid,
    hresolve⟩, hunsplit h.unsplit⟩
  · have hgasInputs := h.objects
    rw [List.append_nil] at hgasInputs
    rw [List.map_append, hgasInputs, List.map_cons, hothers, hid, hobjects, hinput]
    simp
  · intro c hc
    obtain ⟨id, hused, heq⟩ := h.merged c hc
    exact ⟨id, hall.usedIds hused, heq⟩
  · intro c hc
    rcases List.mem_cons.mp hc with rfl | hc
    · refine ⟨input.id, List.mem_append_left _ ?_, hid⟩
      rw [if_neg hgas, hresolve]
      simp
    · obtain ⟨id, hmem, heq⟩ := exists_mem_of_map_eq hothers hc
      exact ⟨id, hbacking hmem, heq⟩

/-- The payouts add no object: they split the coin and take nothing else. -/
theorem addTransfers_spec {payouts : List (Argument × String)}
    (h : addTransfers sdk tx payouts = .ok tx') :
    tx.Grows tx' ∧ tx'.objectIds = tx.objectIds ∧
      ∀ coin amounts, Command.splitCoins coin amounts ∈ tx'.commands →
        Command.splitCoins coin amounts ∈ tx.commands := by
  induction payouts generalizing tx with
  | nil =>
    cases h
    exact ⟨.refl _, rfl, fun _ _ => id⟩
  | cons payout _ ih =>
    obtain ⟨coin, _⟩ := payout
    simp only [addTransfers, bind_ok_iff] at h
    obtain ⟨addr, -, h⟩ := h
    obtain ⟨hgrows, hobjects, hsplits⟩ := ih h
    have hadded : tx.Grows ((tx.addInput (.address addr)).2.transferObjects [coin]
        (tx.addInput (.address addr)).1) :=
      ⟨rfl, List.prefix_append _ _, List.prefix_append _ _⟩
    refine ⟨hadded.trans hgrows, ?_, ?_⟩
    · rw [hobjects]
      simp [objectIds, transferObjects,
        addCommand, addInput, CallArg.objectId?]
    · intro coin' amounts hmem
      simpa [transferObjects, addCommand,
        addInput] using hsplits coin' amounts hmem

theorem addPayouts_spec {opts : FundOptions} {coinArg : Argument}
    (h : addPayouts sdk opts coinArg tx = .ok tx') :
    tx.Grows tx' ∧ tx'.objectIds = tx.objectIds ∧
      (∀ coin amounts, Command.splitCoins coin amounts ∈ tx'.commands →
        Command.splitCoins coin amounts ∈ tx.commands ∨ coin = coinArg) ∧
      ∃ amounts, Command.splitCoins coinArg amounts ∈ tx'.commands := by
  obtain ⟨hgrows, hobjects, hsplits⟩ := addTransfers_spec h
  have hinputs : tx.Grows (tx.addInputs
      (opts.recipients.map fun _ => .amount opts.amountPerRecipient)).2 := .addInputs _
  refine ⟨(hinputs.trans (.addCommand _ _)).trans hgrows, ?_, ?_, ?_⟩
  · rw [hobjects]
    have hadded := tx.objectIds_addInputs
      (opts.recipients.map fun _ => .amount opts.amountPerRecipient)
    rw [show (opts.recipients.map fun _ => CallArg.amount opts.amountPerRecipient).filterMap
      CallArg.objectId? = [] by simp [CallArg.objectId?],
      List.append_nil] at hadded
    exact hadded
  · intro coin amounts hmem
    have hbefore := hsplits coin amounts hmem
    simp only [addCommand, addInputs_snd, List.mem_append, List.mem_singleton,
      Command.splitCoins.injEq] at hbefore
    rcases hbefore with hbefore | hbefore
    · exact .inl hbefore
    · exact .inr hbefore.1
  · exact ⟨_, hgrows.commands.subset (List.mem_append_right _ (List.mem_singleton.mpr rfl))⟩

end Steps

/-! ### The whole transaction -/

/-- What the node answers about the funder's coins: `page` gives them by coin type, and
`canonical` the type that a text spells. No two coins are the same object. -/
structure Owned (sdk : Sdk) (rpc : SuiRpc) (owner : String) (canonical : String → String)
    (page : String → List Coin) : Prop where
  answers : ∀ coinType coins, rpc.getCoins owner coinType = .ok coins →
    coins = page (canonical coinType)
  distinct : ∀ coinType, ((page coinType).map (coinId sdk)).Nodup
  apart : ∀ coinType coinType', coinType ≠ coinType' → ∀ c ∈ page coinType,
    ∀ c' ∈ page coinType', coinId sdk c ≠ coinId sdk c'

/-- No gas coin is taken by a command, no object is an input twice, and the split coin is made
of enough of the funder's coins. -/
structure CoinsApart (sdk : Sdk) (coins : List Coin) (opts : FundOptions)
    (tx : TransactionBuilder) : Prop where
  gas : ∀ o ∈ tx.gasObjects, o.id ∉ tx.usedIds
  once : tx.objectIds.Nodup
  covered : ∀ coin amounts, Command.splitCoins coin amounts ∈ tx.commands →
    ∃ drawn : List Coin, drawn ⊆ coins ∧ (drawn.map (coinId sdk)).Nodup ∧
      (∀ c ∈ drawn, ∃ id ∈ tx.backing coin, coinId sdk c = .ok id) ∧
      opts.amountPerRecipient.toNat * opts.recipients.length ≤ balanceSum drawn

/-- One SUI coin covers what the gas coin has to. -/
def OneGasCoin (canonical : String → String) (page : String → List Coin) (opts : FundOptions) :
    Prop :=
  if opts.coinType = suiCoinType then
    ∃ c ∈ page (canonical suiCoinType),
      opts.amountPerRecipient.toNat * opts.recipients.length + gasBudget.toNat ≤ c.balance.toNat
  else
    canonical opts.coinType ≠ canonical suiCoinType ∧
      ∃ c ∈ page (canonical suiCoinType), gasBudget ≤ c.balance

section Whole

variable {sdk : Sdk} {rpc : SuiRpc} {owner : String} {canonical : String → String}
variable {page : String → List Coin} {opts : FundOptions} {tx mid : TransactionBuilder}
variable {gas tokens : List Coin} {coinArg : Argument}

theorem Owned.selected (h : Owned sdk rpc owner canonical page) {coinType : String}
    {amount : UInt64} {selected : List Coin}
    (hselect : selectCoinsForAmount (page coinType) amount = some selected) :
    selected ⊆ page coinType ∧ (selected.map (coinId sdk)).Nodup := by
  have hfirst := (selectCoinsForAmount_spec hselect).1
  have hperm := perm_sortDescending (page coinType)
  refine ⟨fun c hc => hperm.mem_iff.mp (hfirst.subset hc), ?_⟩
  exact ((hperm.map (coinId sdk)).nodup_iff.mpr (h.distinct coinType)).sublist
    (hfirst.sublist.map _)

/-- The transaction is the payouts behind prepared coins. For SUI the gas is the selection, for
any other text it is selected apart. -/
theorem fundTransaction_spec (hlength : opts.recipients.length < 2 ^ 64)
    (howned : Owned sdk rpc owner canonical page)
    (h : fundTransaction sdk rpc owner opts = .ok tx) :
    ∃ (required : UInt64) (selected gas tokens : List Coin) (coinArg : Argument)
      (mid : TransactionBuilder),
      0 < required ∧
      selectCoinsForAmount (page (canonical opts.coinType)) required = some selected ∧
      Prepared sdk gas tokens coinArg mid ∧ addPayouts sdk opts coinArg mid = .ok tx ∧
      (if opts.coinType = suiCoinType then
        required.toNat = opts.amountPerRecipient.toNat * opts.recipients.length +
          gasBudget.toNat ∧ coinArg = .gas ∧ gas = selected ∧ tokens = []
      else
        required.toNat = opts.amountPerRecipient.toNat * opts.recipients.length ∧
          coinArg ≠ .gas ∧ tokens = selected ∧
          selectCoinsForAmount (page (canonical suiCoinType)) gasBudget = some gas) := by
  simp only [fundTransaction, returned, okOr_ok_iff] at h
  obtain ⟨hsome, hamount, _, -, total, htotal, _, hcoins, required, hrequired, selected,
    hselected, ⟨_, mid⟩, hadd, _, hpayouts, _, -, rfl⟩ := h
  cases howned.answers _ _ hcoins
  have hlen : (UInt64.ofNat opts.recipients.length).toNat = opts.recipients.length :=
    UInt64.toNat_ofNat_of_lt' hlength
  have htotal' := checkedMul_eq_some htotal
  rw [hlen] at htotal'
  have hpositive : 0 < total.toNat := by
    rw [htotal']
    apply Nat.mul_pos
    · exact Nat.pos_of_ne_zero fun hzero => hamount (UInt64.toNat_inj.mp hzero)
    · exact List.length_pos_iff.mpr (by simpa using hsome)
  by_cases hsui : opts.coinType = suiCoinType
  · simp only [requiredBalance, hsui, beq_self_eq_true, if_true, okOr_ok_iff] at hrequired
    simp only [addCoins, hsui, beq_self_eq_true, if_true, returned, Prod.mk.injEq] at hadd
    obtain ⟨paid, hpaid, merged, hmerged, rfl, rfl⟩ := hadd
    have hsum := checkedAdd_eq_some hrequired
    refine ⟨required, selected, selected, [], .gas, mid, ?_, hselected,
      gas_prepared rfl rfl rfl hpaid hmerged, hpayouts, ?_⟩
    · rw [UInt64.lt_iff_toNat_lt, hsum]
      exact Nat.lt_of_lt_of_le hpositive (Nat.le_add_right _ _)
    · rw [if_pos hsui, hsum, htotal']
      exact ⟨rfl, rfl, rfl, rfl⟩
  · have hbeq : (opts.coinType == suiCoinType) = false := by simpa using hsui
    simp only [requiredBalance, hbeq, Bool.false_eq_true, if_false, Except.ok.injEq] at hrequired
    subst hrequired
    simp only [addCoins, hbeq, Bool.false_eq_true, if_false, bind_ok_iff, okOr_ok_iff] at hadd
    obtain ⟨_, hgasCoins, gas, hgas, _, hpaid, _, hmerged, hadd⟩ := hadd
    cases howned.answers _ _ hgasCoins
    cases hcase : selected with
    | nil =>
      rw [hcase] at hadd
      cases hadd
    | cons first others =>
      rw [hcase] at hadd
      simp only [returned, Prod.mk.injEq] at hadd
      obtain ⟨_, hinput, _, hmid, rfl, rfl⟩ := hadd
      have hprepared := (gas_prepared rfl rfl rfl hpaid hmerged).tokens hinput hmid
      refine ⟨total, first :: others, gas, first :: others, _, mid, ?_, hcase ▸ hselected,
        hprepared, hpayouts, ?_⟩
      · rw [UInt64.lt_iff_toNat_lt]
        exact hpositive
      · rw [if_neg hsui, htotal']
        exact ⟨rfl, by simp [addInput], rfl, hgas⟩

/-- A second gas coin is both payment and input, and so is a first token coin that pays gas. -/
theorem Prepared.clash (h : Prepared sdk gas tokens coinArg mid)
    (hpayouts : addPayouts sdk opts coinArg mid = .ok tx)
    (hapart : ∀ o ∈ tx.gasObjects, o.id ∉ tx.usedIds) :
    gas.tail = [] ∧ ∀ c ∈ tokens.head?, c ∉ gas := by
  obtain ⟨hgrows, -, -, _, hsplit⟩ := addPayouts_spec hpayouts
  have hpays : ∀ c ∈ gas, ∀ id, coinId sdk c = .ok id → id ∉ tx.usedIds := by
    intro c hc id hid hused
    obtain ⟨_, hmem, hid'⟩ := exists_mem_of_map_eq h.payment hc
    cases hid.symm.trans hid'
    obtain ⟨o, ho, rfl⟩ := List.mem_map.mp hmem
    rw [← hgrows.gas] at ho
    exact hapart o ho hused
  refine ⟨?_, ?_⟩
  · apply List.eq_nil_iff_forall_not_mem.mpr
    intro c hc
    obtain ⟨id, hused, hid⟩ := h.merged c hc
    exact hpays c (List.mem_of_mem_tail hc) id hid (hgrows.usedIds hused)
  · intro c hc hgas
    rcases h.target with ⟨-, rfl⟩ | ⟨-, _, _, id, rfl, hid, hresolve⟩
    · cases hc
    · cases hc
      apply hpays c hgas id hid
      exact mem_usedIds hsplit List.mem_cons_self (hgrows.resolve hresolve)

/-- One gas coin that is no token coin is used for nothing else. -/
theorem Prepared.apart {first : Coin} (h : Prepared sdk [first] tokens coinArg mid)
    (hpayouts : addPayouts sdk opts coinArg mid = .ok tx)
    (htokens : (tokens.map (coinId sdk)).Nodup)
    (hother : ∀ c ∈ tokens, coinId sdk first ≠ coinId sdk c) :
    (∀ o ∈ tx.gasObjects, o.id ∉ tx.usedIds) ∧ tx.objectIds.Nodup := by
  obtain ⟨hgrows, hobjects, -, -⟩ := addPayouts_spec hpayouts
  have hinputs := h.objects
  simp only [List.tail_cons, List.nil_append] at hinputs
  refine ⟨?_, ?_⟩
  · intro o ho hused
    have hmem := tx.usedIds_subset hused
    rw [hobjects] at hmem
    have hpay : Except.ok o.id ∈ [first].map (coinId sdk) := by
      rw [h.payment, ← hgrows.gas]
      exact List.mem_map_of_mem (List.mem_map_of_mem ho)
    have htoken : Except.ok o.id ∈ tokens.map (coinId sdk) := by
      rw [hinputs]
      exact List.mem_map_of_mem hmem
    obtain ⟨c, hc, heq⟩ := List.mem_map.mp htoken
    rw [List.map_singleton, List.mem_singleton] at hpay
    exact hother c hc (hpay.symm.trans heq.symm)
  · rw [hobjects]
    rw [hinputs] at htokens
    exact List.Nodup.of_map _ htokens

theorem Prepared.covered (h : Prepared sdk gas tokens coinArg mid)
    (hpayouts : addPayouts sdk opts coinArg mid = .ok tx) {coins drawn : List Coin}
    (hdrawn : drawn = if coinArg = .gas then gas else tokens) (hsub : drawn ⊆ coins)
    (hnodup : (drawn.map (coinId sdk)).Nodup)
    (henough : opts.amountPerRecipient.toNat * opts.recipients.length ≤ balanceSum drawn) :
    ∀ coin amounts, Command.splitCoins coin amounts ∈ tx.commands →
    ∃ drawn : List Coin, drawn ⊆ coins ∧ (drawn.map (coinId sdk)).Nodup ∧
      (∀ c ∈ drawn, ∃ id ∈ tx.backing coin, coinId sdk c = .ok id) ∧
      opts.amountPerRecipient.toNat * opts.recipients.length ≤ balanceSum drawn := by
  obtain ⟨hgrows, -, hsplits, -⟩ := addPayouts_spec hpayouts
  intro coin amounts hmem
  rcases hsplits coin amounts hmem with hbefore | rfl
  · exact absurd hbefore (h.unsplit coin amounts)
  · refine ⟨drawn, hsub, hnodup, ?_, henough⟩
    intro c hc
    obtain ⟨id, hid, heq⟩ := h.drawn c (hdrawn ▸ hc)
    exact ⟨id, hgrows.backing coin hid, heq⟩

end Whole

/-- The coins of a funding transaction are used apart exactly when one SUI coin does for the
gas coin and the funded type is not another spelling of SUI. -/
theorem funding_coins_apart_iff {sdk : Sdk} {rpc : SuiRpc} {owner : String}
    {canonical : String → String} {page : String → List Coin} {opts : FundOptions}
    {tx : TransactionBuilder} (hlength : opts.recipients.length < 2 ^ 64)
    (howned : Owned sdk rpc owner canonical page)
    (h : fundTransaction sdk rpc owner opts = .ok tx) :
    CoinsApart sdk (page (canonical opts.coinType)) opts tx ↔ OneGasCoin canonical page opts := by
  obtain ⟨_, selected, gas, _, _, _, hpositive, hselected, hprepared, hpayouts,
    hbranch⟩ := fundTransaction_spec hlength howned h
  obtain ⟨hsub, hnodup⟩ := howned.selected hselected
  have henough := (selectCoinsForAmount_spec hselected).2
  obtain ⟨first, others, hcons, hfirst, hsingle⟩ := exists_first_of_select hpositive hselected
  by_cases hsui : opts.coinType = suiCoinType
  · rw [if_pos hsui] at hbranch
    obtain ⟨hrequired, rfl, rfl, rfl⟩ := hbranch
    have hone : OneGasCoin canonical page opts ↔ others = [] := by
      rw [OneGasCoin, if_pos hsui, hsingle, hsui, ← hrequired]
      rfl
    rw [hone]
    constructor
    · intro hcoins
      have htail := (hprepared.clash hpayouts hcoins.gas).1
      rwa [hcons] at htail
    · rintro rfl
      rw [hcons] at hprepared
      obtain ⟨hgas, honce⟩ := hprepared.apart hpayouts List.nodup_nil (by simp)
      refine ⟨hgas, honce, hprepared.covered hpayouts (by rw [if_pos rfl]) (hcons ▸ hsub)
        (hcons ▸ hnodup) ?_⟩
      rw [← hcons]
      omega
  · rw [if_neg hsui] at hbranch
    obtain ⟨_, hcoinArg, rfl, hgas⟩ := hbranch
    obtain ⟨firstGas, _, hgasCons, hfirstGas, hgasSingle⟩ :=
      exists_first_of_select (by decide) hgas
    rw [OneGasCoin, if_neg hsui, ← hgasSingle]
    constructor
    · intro hcoins
      obtain ⟨htail, hhead⟩ := hprepared.clash hpayouts hcoins.gas
      rw [hgasCons, List.tail_cons] at htail
      refine ⟨?_, htail⟩
      intro hsame
      -- under another spelling of SUI both selections start with the largest SUI coin
      rw [hsame, hfirstGas] at hfirst
      obtain rfl : firstGas = first := Option.some.inj hfirst
      apply hhead firstGas
      · rw [hcons]
        rfl
      · rw [hgasCons]
        exact List.mem_cons_self
    · rintro ⟨hother, rfl⟩
      have hgasSub := (howned.selected hgas).1
      rw [hgasCons] at hprepared hgasSub
      obtain ⟨hgasApart, honce⟩ := hprepared.apart hpayouts hnodup fun c hc =>
        howned.apart _ _ hother.symm firstGas (hgasSub List.mem_cons_self) c (hsub hc)
      refine ⟨hgasApart, honce, hprepared.covered hpayouts (by rw [if_neg hcoinArg]) hsub hnodup
        ?_⟩
      omega

namespace Sample

/-- An address is told by the length of its text, and everything builds. -/
def sdk : Sdk where
  addressFromHex text := .ok (Bytes32.fill (UInt8.ofNat text.length))
  digestFromBase58 _ := .ok (Bytes32.fill 0)
  tryBuild _ := .ok ()

def suiCoin (objectId : String) (balance : UInt64) : Coin :=
  ⟨suiCoinType, objectId, 1, "A", balance⟩

/-- A node that knows these SUI coins and no others. -/
def page (coins : List Coin) (coinType : String) : List Coin :=
  if coinType = suiCoinType then coins else []

def rpc (coins : List Coin) : SuiRpc where
  getCoins _ coinType := .ok (page coins coinType)

def opts : FundOptions := ⟨suiCoinType, 10000000, ["0x2", "0x03"]⟩

theorem owned {coins : List Coin} (h : (coins.map (coinId sdk)).Nodup) :
    Owned sdk (rpc coins) "0xmaster" id (page coins) where
  answers coinType coins' hanswer := (Except.ok.inj hanswer).symm
  distinct coinType := by
    unfold page
    split
    · exact h
    · exact List.nodup_nil
  apart coinType coinType' hne c hc c' hc' := by
    unfold page at hc hc'
    split at hc
    · next hsui =>
        rw [if_neg (fun hsui' => hne (hsui.trans hsui'.symm))] at hc'
        cases hc'
    · cases hc

end Sample

/-- Of two coins the larger one covers ten million for each recipient and the gas. -/
theorem funding_coins_apart_iff_one_coin : ∃ tx,
    fundTransaction Sample.sdk (Sample.rpc [Sample.suiCoin "0x022" 100000000,
      Sample.suiCoin "0x11" 300000000]) "0xmaster" Sample.opts = .ok tx ∧
    tx.gasObjects.map ObjectInput.id = [Bytes32.fill 4] ∧
    CoinsApart Sample.sdk [Sample.suiCoin "0x022" 100000000, Sample.suiCoin "0x11" 300000000]
      Sample.opts tx := by
  have heval : (fundTransaction Sample.sdk (Sample.rpc [Sample.suiCoin "0x022" 100000000,
      Sample.suiCoin "0x11" 300000000]) "0xmaster" Sample.opts).map
        (fun tx => tx.gasObjects.map ObjectInput.id) = .ok [Bytes32.fill 4] := by
    decide +kernel
  obtain ⟨tx, htx, hgas⟩ := map_ok_iff.mp heval
  refine ⟨tx, htx, hgas, (funding_coins_apart_iff (by decide) (Sample.owned (by decide)) htx).mpr ?_⟩
  exact ⟨Sample.suiCoin "0x11" 300000000, by decide, by decide⟩

/-- Three coins of a hundred million: all three pay the gas, and two of them are merged into the
gas coin as inputs. -/
theorem gas_coins_merged_again : ∃ tx,
    fundTransaction Sample.sdk (Sample.rpc [Sample.suiCoin "0x11" 100000000,
      Sample.suiCoin "0x022" 100000000, Sample.suiCoin "0x0033" 100000000]) "0xmaster"
      Sample.opts = .ok tx ∧
    tx.gasObjects.map ObjectInput.id = [Bytes32.fill 4, Bytes32.fill 5, Bytes32.fill 6] ∧
    tx.usedIds = [Bytes32.fill 5, Bytes32.fill 6] ∧
    ¬CoinsApart Sample.sdk [Sample.suiCoin "0x11" 100000000,
      Sample.suiCoin "0x022" 100000000, Sample.suiCoin "0x0033" 100000000] Sample.opts tx := by
  have heval : (fundTransaction Sample.sdk (Sample.rpc [Sample.suiCoin "0x11" 100000000,
      Sample.suiCoin "0x022" 100000000, Sample.suiCoin "0x0033" 100000000]) "0xmaster"
      Sample.opts).map (fun tx => (tx.gasObjects.map ObjectInput.id, tx.usedIds)) =
      .ok ([Bytes32.fill 4, Bytes32.fill 5, Bytes32.fill 6],
        [Bytes32.fill 5, Bytes32.fill 6]) := by
    decide +kernel
  obtain ⟨tx, htx, hids⟩ := map_ok_iff.mp heval
  obtain ⟨hgas, hused⟩ := Prod.mk.inj hids
  refine ⟨tx, htx, hgas, hused, ?_⟩
  intro hapart
  have hpays : Bytes32.fill 5 ∈ tx.gasObjects.map ObjectInput.id := by
    rw [hgas]
    decide
  obtain ⟨o, ho, hid⟩ := List.mem_map.mp hpays
  apply hapart.gas o ho
  rw [hid, hused]
  exact List.mem_cons_self

end DopamintArena.WalletPool
