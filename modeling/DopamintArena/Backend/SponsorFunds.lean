import DopamintArena.Backend.Sponsor

/-!
What the gate of the sponsor is good for. It bars the gas coin from every command
and lets withdrawals draw on the sender only, so by where its values come from an
accepted transaction spends nothing of the gas owner's, as long as the sender is
somebody else. Nothing checks that: the sender is whatever the request says.
-/

namespace DopamintArena.Backend

open Foundation

variable {packageId : Bytes32} {coinType : TypeTag} {examples : List ExampleModule}

theorem any_gas_eq_false_iff {l : List Argument} :
    l.any (fun a => decide (a = .gas)) = false ↔ Argument.gas ∉ l := by
  rw [List.any_eq_false]
  constructor
  · intro h hmem
    exact h _ hmem (decide_eq_true rfl)
  · intro h a ha hgas
    rw [of_decide_eq_true hgas] at ha
    exact h ha

/-- The upgrade ticket is the only argument that the check does not look at. -/
theorem gas_not_mem_of_references {cmd : Command} (hticket : ∀ ticket, cmd ≠ .upgrade ticket)
    (h : commandReferencesGas cmd = false) : Argument.gas ∉ cmd.arguments := by
  cases cmd with
  | upgrade ticket => exact absurd rfl (hticket ticket)
  | publish => exact List.not_mem_nil
  | other => exact List.not_mem_nil
  | moveCall | makeMoveVector => exact any_gas_eq_false_iff.mp h
  | splitCoins | mergeCoins =>
    simp only [commandReferencesGas, Bool.or_eq_false_iff, decide_eq_false_iff_not,
      any_gas_eq_false_iff] at h
    simpa [Command.arguments, eq_comm] using h
  | transferObjects =>
    simp only [commandReferencesGas, Bool.or_eq_false_iff, decide_eq_false_iff_not,
      any_gas_eq_false_iff] at h
    simpa [Command.arguments, eq_comm, and_comm] using h

/-- What the gate has checked of a command. -/
theorem validateCommand_ok {cmd : Command}
    (h : validateCommand packageId coinType examples cmd = .ok ⟨⟩) :
    Argument.gas ∉ cmd.arguments ∧ ∀ call, cmd = .moveCall call →
      isSponsored packageId coinType examples call ∧
        (isCoinGeneric packageId examples call → call.typeArguments = [coinType]) := by
  simp only [validateCommand, returned] at h
  obtain ⟨hgas, hrest⟩ := h
  cases cmd with
  | upgrade => cases hrest
  | moveCall =>
    refine ⟨gas_not_mem_of_references (by simp) hgas, ?_⟩
    rintro _ ⟨⟩
    simpa only [bind_ok_iff, require_ok_iff, exists_const] using hrest
  | _ => exact ⟨gas_not_mem_of_references (by simp) hgas, by simp⟩

theorem validateInput_ok {w : FundsWithdrawal}
    (h : validateInput coinType (.fundsWithdrawal w) = .ok ⟨⟩) :
    w.source = .sender ∧ w.coinType = coinType := by
  simpa only [validateInput, bind_ok_iff, require_ok_iff, exists_const] using h

theorem validateSponsorableInner_ok {ptb : ProgrammableTransaction}
    (h : validateSponsorableInner packageId coinType examples ptb = .ok ⟨⟩) :
    (∀ cmd ∈ ptb.commands, validateCommand packageId coinType examples cmd = .ok ⟨⟩) ∧
      ∀ i ∈ ptb.inputs, validateInput coinType i = .ok ⟨⟩ := by
  obtain ⟨⟨⟩, hcommands, hinputs⟩ := bind_ok_iff.mp h
  exact ⟨forM_ok_iff.mp hcommands, forM_ok_iff.mp hinputs⟩

namespace ProgrammableTransaction

variable {ptb : ProgrammableTransaction}

/-- Every call is one that the sponsor pays for, and the configured coin is the only one. -/
structure Allowed (packageId : Bytes32) (coinType : TypeTag) (examples : List ExampleModule)
    (ptb : ProgrammableTransaction) : Prop where
  call : ∀ call, .moveCall call ∈ ptb.commands → isSponsored packageId coinType examples call
  callCoin : ∀ call, .moveCall call ∈ ptb.commands → isCoinGeneric packageId examples call →
    call.typeArguments = [coinType]
  withdrawalCoin : ∀ w, .fundsWithdrawal w ∈ ptb.inputs → w.coinType = coinType

/-- Some command takes a withdrawal. -/
def TakesWithdrawal (ptb : ProgrammableTransaction) : Prop :=
  ∃ cmd ∈ ptb.commands, ∃ index w, Argument.input index ∈ cmd.arguments ∧
    ptb.inputs[index]? = some (.fundsWithdrawal w)

theorem allowed_of_accepted (h : validateSponsorableInner packageId coinType examples ptb = .ok ⟨⟩) :
    ptb.Allowed packageId coinType examples := by
  obtain ⟨hcommands, hinputs⟩ := validateSponsorableInner_ok h
  constructor
  · intro call hcall
    exact ((validateCommand_ok (hcommands _ hcall)).2 call rfl).1
  · intro call hcall
    exact ((validateCommand_ok (hcommands _ hcall)).2 call rfl).2
  · intro w hw
    exact (validateInput_ok (hinputs _ hw)).2

/-- The origins that matter are those of the arguments before the first command. -/
theorem sparesGasOwner_iff_arguments {sender gasOwner : Bytes32} :
    ptb.SparesGasOwner sender gasOwner ↔ ∀ cmd ∈ ptb.commands, ∀ a ∈ cmd.arguments,
      ∀ o ∈ ptb.initialFlow sender gasOwner a.place, o ∉ gasOwnerFunds gasOwner := by
  rw [SparesGasOwner, Taint.clean_iff]
  constructor
  · intro h cmd hcmd a ha
    obtain ⟨index, hindex⟩ := List.mem_iff_getElem?.mp hcmd
    refine h ⟨cmd.arguments.map Argument.place, .result index⟩ ?_ a.place (List.mem_map_of_mem ha)
    exact List.mem_map.mpr ⟨(cmd, index), List.mem_zipIdx_iff_getElem?.mpr hindex, rfl⟩
  · intro h op hop p hp
    obtain ⟨⟨cmd, index⟩, hcmd, rfl⟩ := List.mem_map.mp hop
    obtain ⟨a, ha, rfl⟩ := List.mem_map.mp hp
    exact h cmd (List.mem_iff_getElem?.mpr ⟨index, List.mem_zipIdx_iff_getElem?.mp hcmd⟩) a ha

theorem sparesGasOwner_iff (h : validateSponsorableInner packageId coinType examples ptb = .ok ⟨⟩)
    (sender gasOwner : Bytes32) :
    ptb.SparesGasOwner sender gasOwner ↔ sender ≠ gasOwner ∨ ¬ptb.TakesWithdrawal := by
  obtain ⟨hcommands, hinputs⟩ := validateSponsorableInner_ok h
  have hsource : ∀ {index : Nat} {w : FundsWithdrawal},
      ptb.inputs[index]? = some (.fundsWithdrawal w) → w.source = .sender := by
    intro index w hw
    exact (validateInput_ok (hinputs _ (List.mem_iff_getElem?.mpr ⟨index, hw⟩))).1
  rw [sparesGasOwner_iff_arguments]
  constructor
  · intro hspared
    by_contra hcontra
    simp only [not_or, not_not] at hcontra
    obtain ⟨rfl, cmd, hcmd, index, w, harg, hw⟩ := hcontra
    refine hspared cmd hcmd (.input index) harg (.balance sender) ?_ (by simp [gasOwnerFunds])
    exact ⟨.fundsWithdrawal w, hw, by simp [inputOrigins, hsource hw]⟩
  · intro hcondition cmd hcmd a ha o ho hfunds
    cases a with
    | gas => exact (validateCommand_ok (hcommands cmd hcmd)).1 ha
    | result => exact ho
    | nestedResult => exact ho
    | input index =>
      obtain ⟨i, hi, ho⟩ := ho
      cases i with
      | fundsWithdrawal w =>
        have hbalance : o = .balance sender := by simpa [inputOrigins, hsource hi] using ho
        have hsame : sender = gasOwner := by simpa [hbalance, gasOwnerFunds] using hfunds
        rcases hcondition with hother | hnone
        · exact hother hsame
        · exact hnone ⟨cmd, hcmd, index, w, ha, hi⟩
      | pure => exact ho
      | _ =>
        rw [Set.mem_singleton_iff.mp ho] at hfunds
        simp [gasOwnerFunds] at hfunds

end ProgrammableTransaction

/-- An accepted transaction calls only what the sponsor pays for, with the configured coin, and
its values derive from nothing of the gas owner's exactly if the sender is somebody else or
no command takes a withdrawal. -/
theorem sponsored_funds_iff {ptb : ProgrammableTransaction}
    (haccepted : validateSponsorableInner packageId coinType examples ptb = .ok ⟨⟩)
    (sender gasOwner : Bytes32) :
    ptb.Allowed packageId coinType examples ∧
      (ptb.SparesGasOwner sender gasOwner ↔ sender ≠ gasOwner ∨ ¬ptb.TakesWithdrawal) :=
  ⟨ptb.allowed_of_accepted haccepted, ptb.sparesGasOwner_iff haccepted sender gasOwner⟩

def sampleCoin : TypeTag := .struct (Bytes32.fill 10) "mtps" "MTPS" []

/-- A withdrawal from the sender's balance is redeemed and transferred to an address. -/
def redeemAndTransfer (recipient : Bytes32) : ProgrammableTransaction where
  inputs := [.fundsWithdrawal ⟨100, sampleCoin, .sender⟩, .pure recipient.bytes]
  commands :=
    [.moveCall ⟨suiFrameworkAddress, "coin", "redeem_funds", [sampleCoin], [.input 0]⟩,
      .transferObjects [.result 0] (.input 1)]

theorem sponsored_funds_iff_other_sender :
    (redeemAndTransfer (Bytes32.fill 3)).SparesGasOwner (Bytes32.fill 1) (Bytes32.fill 2) :=
  have haccepted : validateSponsorableInner (Bytes32.fill 9) sampleCoin []
      (redeemAndTransfer (Bytes32.fill 3)) = .ok ⟨⟩ := by decide +kernel
  (sponsored_funds_iff haccepted (Bytes32.fill 1) (Bytes32.fill 2)).2.mpr (.inl (by decide))

/-- With the settler itself as the sender, the sponsor builds the transaction, and the settler's
own balance is transferred. -/
theorem settler_as_sender_pays :
    (buildSponsoredTx (Bytes32.fill 9) sampleCoin [] (Bytes32.fill 2) (Bytes32.fill 2)
        (.programmableTransaction (redeemAndTransfer (Bytes32.fill 3))) 1000 1 7).isOk = true ∧
      ¬(redeemAndTransfer (Bytes32.fill 3)).SparesGasOwner (Bytes32.fill 2) (Bytes32.fill 2) := by
  refine ⟨by decide +kernel, ?_⟩
  rw [ProgrammableTransaction.sparesGasOwner_iff_arguments]
  intro hspared
  refine hspared _ List.mem_cons_self (.input 0) List.mem_cons_self (.balance (Bytes32.fill 2)) ?_
    (by simp [ProgrammableTransaction.gasOwnerFunds])
  exact ⟨_, rfl, rfl⟩

end DopamintArena.Backend
