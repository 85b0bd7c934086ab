import VeilNet.Guarantees.PrepaidAccounting

/-!
# Money and credit

`Authorize` spends in the middle: what `Mint` checks after the transfer is not what `NewPrepaid`
checked before. A call takes money without granting credit exactly when the transfer is submitted
and `Mint` then refuses: a name of white space, or a failing random source.

A successful call drops the credit that its session had. So the stored deposits add up to the
money paid exactly as long as no call meets a session with credit.
-/
namespace VeilNet.Guarantees.FundedCredit
open Lib Source Source.Payments Guarantees.PrepaidAccounting

section call
variable {F : Type} [GoFloat F]

/-- Both names have a character that is not white space, and `crypto/rand` delivers. -/
def Mintable (draw : Tokens.Draw) (nodeID sessionID : String) : Prop :=
  GoText.blank nodeID = false ∧ GoText.blank sessionID = false ∧
    draw.id.isSome = true ∧ draw.secret.isSome = true

instance (draw : Tokens.Draw) (nodeID sessionID : String) :
    Decidable (Mintable draw nodeID sessionID) :=
  inferInstanceAs (Decidable (_ ∧ _))

/-- The checks before the transfer pass, there is a wallet, and it builds and
submits the transfer of the deposit. -/
def Transfers (opts : Options F) (now : Time) (nodeID operatorAddr sessionID : String)
    (deposit : F) : Prop :=
  (approve opts now nodeID operatorAddr sessionID deposit).isOk = true ∧
  ∃ w txid, opts.wallet = some w ∧
    w.buildTransfer operatorAddr (toAtomic deposit).toUInt64 = .ok () ∧
    w.submitTransfer operatorAddr (toAtomic deposit).toUInt64 = .ok txid

/-- The call left no trace: no transfer was submitted, and credits and tokens are
as they were. -/
def Untouched (s : Service F) (out : Authorized F) : Prop :=
  out.transfer = none ∧ out.service.prepaid = s.prepaid ∧
    out.service.issuer.tokens = s.issuer.tokens

variable {opts : Options F} {now : Time} {draw : Tokens.Draw} {s : Service F}
  {nodeID operatorAddr sessionID : String} {deposit : F}

theorem minted_of_mintable (mintable : Mintable draw nodeID sessionID) (now : Time) (ttl : Duration)
    (iss : Tokens.Issuer) :
    ∃ t next, Tokens.mint now draw iss nodeID sessionID ttl Tokens.scopeExit = (.ok t, next) := by
  obtain ⟨nodeNamed, sessionNamed, drawnID, drawnSecret⟩ := mintable
  exact Tokens.mint_ok_iff.mpr ⟨nodeNamed, sessionNamed, .inl rfl, drawnID, drawnSecret⟩

theorem mintable_of_minted {ttl : Duration} {iss next : Tokens.Issuer} {t : Tokens.Token}
    (minted : Tokens.mint now draw iss nodeID sessionID ttl Tokens.scopeExit = (.ok t, next)) :
    Mintable draw nodeID sessionID := by
  obtain ⟨nodeNamed, sessionNamed, _, drawn⟩ := Tokens.mint_ok_iff.mp ⟨t, next, minted⟩
  exact ⟨nodeNamed, sessionNamed, drawn⟩

/-- A transfer is reported by `fund` exactly when the wallet made one. -/
theorem transfers_iff_funded :
    Transfers opts now nodeID operatorAddr sessionID deposit ↔
      ∃ payload credit txid transfer,
        approve opts now nodeID operatorAddr sessionID deposit = .ok (payload, credit) ∧
        fund opts operatorAddr credit = .ok (txid, some transfer) := by
  constructor
  · rintro ⟨passed, w, txid, attached, built, submitted⟩
    cases approved : approve opts now nodeID operatorAddr sessionID deposit with
    | error e =>
      rw [approved] at passed
      cases passed
    | ok pair =>
      obtain ⟨payload, credit⟩ := pair
      rw [← (approve_ok approved).1] at built submitted
      refine ⟨payload, credit, txid, (operatorAddr, credit.depositAtomic.toUInt64), rfl, ?_⟩
      simp only [fund, attached, built, submitted]
      rfl
  · rintro ⟨payload, credit, txid, transfer, approved, funded⟩
    unfold fund at funded
    split at funded
    · cases funded
    · next w attached =>
      obtain ⟨_, built, funded⟩ := Outcome.of_bind_ok funded
      obtain ⟨txid', submitted, _⟩ := Outcome.of_bind_ok funded
      rw [(approve_ok approved).1] at built submitted
      exact ⟨by rw [approved]; rfl, w, txid', attached, Outcome.of_mapError_ok built,
        Outcome.of_mapError_ok submitted⟩

end call

/-- A failing `Authorize` has submitted no transfer and changed neither credits nor tokens,
exactly when `Mint` accepts its names and draw, or it comes to no submitted transfer. -/
theorem error_untouched_iff {F : Type} [GoFloat F] (opts : Options F) (now : Time)
    (draw : Tokens.Draw) (s : Service F) (nodeID operatorAddr sessionID : String) (deposit : F) :
    (∀ e, (authorize opts now draw s nodeID operatorAddr sessionID deposit).result = .error e →
      Untouched s (authorize opts now draw s nodeID operatorAddr sessionID deposit)) ↔
    Mintable draw nodeID sessionID ∨
      ¬ Transfers opts now nodeID operatorAddr sessionID deposit := by
  rcases authorize_cases opts now draw s nodeID operatorAddr sessionID deposit with
    ⟨e, stopped, unfunded⟩ | ⟨payload, credit, txid, transfer, approved, funded,
      ⟨e, refused, failed⟩ | ⟨token, issuer, minted, granted⟩⟩
  · rw [stopped]
    refine iff_of_true (fun _ _ => ⟨rfl, rfl, rfl⟩) (.inr fun transfers => ?_)
    obtain ⟨payload, credit, txid, transfer, approved, funded⟩ := transfers_iff_funded.mp transfers
    exact unfunded payload credit _ approved funded
  · rw [failed]
    have unmintable : ¬ Mintable draw nodeID sessionID := by
      intro mintable
      obtain ⟨t, next, minted⟩ := minted_of_mintable mintable now
        (tokenTTL payload.estHours) s.issuer
      rw [minted] at refused
      cases refused
    -- the transfer of this call is the one that `fund` reported
    have spent : Transfers opts now nodeID operatorAddr sessionID deposit ↔ transfer ≠ none := by
      rw [transfers_iff_funded, Option.ne_none_iff_exists']
      constructor
      · rintro ⟨_, _, _, made, approved', funded'⟩
        obtain ⟨rfl, rfl⟩ := Prod.mk.inj (Except.ok.inj (approved.symm.trans approved'))
        exact ⟨made, (Prod.mk.inj (Except.ok.inj (funded.symm.trans funded'))).2⟩
      · rintro ⟨made, rfl⟩
        exact ⟨payload, credit, txid, made, approved, funded⟩
    constructor
    · intro untouched
      refine .inr fun transfers => spent.mp transfers ?_
      exact (untouched (.token e) rfl).1
    · rintro (mintable | unspent) _ _
      · exact absurd mintable unmintable
      · exact ⟨not_not.mp (mt spent.mpr unspent), rfl, rfl⟩
  · rw [granted]
    refine iff_of_true (fun e impossible => ?_) (.inl (mintable_of_minted minted))
    cases impossible

section blankName

/-- A wallet with enough money that submits every transfer. -/
def payingWallet : Wallet :=
  { getBalance := .ok 1000000
    buildTransfer := fun _ _ => .ok ()
    submitTransfer := fun _ _ => .ok "tx"
    buildInvoke := fun _ => .ok ()
    submitInvoke := fun _ => .ok "tx" }

def paying : Options ℚ := { demo with wallet := some payingWallet }

def someDraw : Tokens.Draw := ⟨some (.replicate 16 0), some (.replicate 32 0)⟩

/-- The transfer for a session named by a blank is submitted, and `Mint` refuses. -/
theorem blank_session_pays_for_nothing :
    let out := authorize paying 0 someDraw (newService ℚ Tokens.newIssuer) "node" "operator" " " 1
    out.result.isOk = false ∧ out.transfer = some ("operator", 100000) := by
  decide +kernel

end blankName

section ledger
variable {F : Type}

def deposits (s : Service F) : ℤ := GoMap.sumBy (·.depositAtomic.toInt) s.prepaid

/-- What one `Authorize` was paid: the amount of its transfer or, without a wallet,
the deposit it granted. -/
def paidBy (out : Authorized F) : ℤ :=
  match out.transfer, out.result with
  | some (_, amount), _ => amount.toNat
  | none, .ok grant => grant.credit.depositAtomic.toInt
  | none, .error _ => 0

/-- A service with the money paid to it so far. -/
structure Books (F : Type) where
  service : Service F
  paid : ℤ

def opened (issuer : Tokens.Issuer) : Books F := ⟨newService F issuer, 0⟩

/-- The credits hold what was paid. -/
def Funded (b : Books F) : Prop := deposits b.service = b.paid

instance (b : Books F) : Decidable (Funded b) := inferInstanceAs (Decidable (_ = _))

/-- Every stored credit has a deposit. -/
def Positive (s : Service F) : Prop :=
  ∀ sessionID p, s.prepaid.lookup sessionID = some p → 0 < p.depositAtomic.toInt

variable [GoFloat F] (verify : List UInt8 → String → List UInt8 → Bool)
  (sha256 : String → List UInt8)

def record (b : Books F) (op : Op F) : Books F :=
  { service := PrepaidAccounting.step verify sha256 b.service op
    paid := match op with
      | .authorize opts now draw nodeID operatorAddr sessionID deposit =>
        b.paid + paidBy (authorize opts now draw b.service nodeID operatorAddr sessionID deposit)
      | .receipt .. | .settle .. => b.paid }

def Succeeds (b : Books F) : Op F → Prop
  | .authorize opts now draw nodeID operatorAddr sessionID deposit =>
    (authorize opts now draw b.service nodeID operatorAddr sessionID deposit).result.isOk = true
  | .receipt .. | .settle .. => True

/-- An `Authorize` of the run is for a session without credit. -/
def NewSession (b : Books F) : Op F → Prop
  | .authorize _ _ _ _ _ sessionID _ => (b.service.prepaid.lookup sessionID).isNone = true
  | .receipt .. | .settle .. => True

instance (b : Books F) : ∀ op : Op F, Decidable (Succeeds b op)
  | .authorize .. => instDecidableEqBool _ _
  | .receipt .. | .settle .. => instDecidableTrue

instance (b : Books F) : ∀ op : Op F, Decidable (NewSession b op)
  | .authorize .. => instDecidableEqBool _ _
  | .receipt .. | .settle .. => instDecidableTrue

end ledger

section steps
variable {F : Type} {s : Service F}

theorem deposits_attributed (batch : List Receipt) (prepaid : GoMap String (Prepaid F)) :
    GoMap.sumBy (·.depositAtomic.toInt) (batch.foldl attributeSpend prepaid) =
      GoMap.sumBy (·.depositAtomic.toInt) prepaid := by
  induction batch generalizing prepaid with
  | nil => rfl
  | cons r rest ih =>
    rw [List.foldl_cons, ih]
    unfold attributeSpend
    cases known : prepaid.lookup r.sessionID with
    | none => rfl
    | some p =>
      have moved := GoMap.sumBy_insert_old (fun p : Prepaid F => p.depositAtomic.toInt)
        (p.attribute r.amount) known
      rw [attribute_depositAtomic] at moved
      dsimp only
      omega

theorem positive_attributed {prepaid : GoMap String (Prepaid F)} (batch : List Receipt)
    (positive : ∀ sessionID p, prepaid.lookup sessionID = some p → 0 < p.depositAtomic.toInt) :
    ∀ sessionID p, (batch.foldl attributeSpend prepaid).lookup sessionID = some p →
      0 < p.depositAtomic.toInt := by
  induction batch generalizing prepaid with
  | nil => exact positive
  | cons r rest ih =>
    refine ih fun sessionID p found => ?_
    rw [lookup_attributeSpend] at found
    split at found
    · obtain ⟨old, known, rfl⟩ := Option.map_eq_some_iff.mp found
      rw [attribute_depositAtomic]
      exact positive sessionID old known
    · exact positive sessionID p found

theorem Positive.insert (h : Positive s) (sessionID : String) {p : Prepaid F}
    (funded : 0 < p.depositAtomic.toInt) :
    Positive { s with prepaid := s.prepaid.insert sessionID p } := by
  intro key stored found
  rcases GoMap.lookup_insert_cases found with ⟨_, rfl⟩ | ⟨_, old⟩
  · exact funded
  · exact h key stored old

/-- A stored credit adds its deposit; the total stays right only if nothing was
overwritten. -/
theorem deposits_insert_iff (h : Positive s) (sessionID : String) (p : Prepaid F) :
    deposits { s with prepaid := s.prepaid.insert sessionID p } = deposits s +
      p.depositAtomic.toInt ↔ (s.prepaid.lookup sessionID).isNone = true := by
  unfold deposits
  cases known : s.prepaid.lookup sessionID with
  | none =>
    rw [GoMap.sumBy_insert_new _ p known]
    exact iff_of_true (add_comm _ _) rfl
  | some old =>
    have moved := GoMap.sumBy_insert_old (fun p : Prepaid F => p.depositAtomic.toInt) p known
    have held := h sessionID old known
    refine iff_of_false (fun same => ?_) (fun absent => by cases absent)
    dsimp only at moved same
    omega

variable (verify : List UInt8 → String → List UInt8 → Bool) (sha256 : String → List UInt8)

/-- A step other than `Authorize` keeps the deposits, all of them positive. -/
theorem deposits_receipt (h : Positive s) (order : RangeOrder) (r : Receipt) :
    deposits (afterReceipt verify order s r) = deposits s ∧
      Positive (afterReceipt verify order s r) := by
  rcases afterReceipt_cases verify order s r with ⟨unchanged, _⟩ | accepted
  · rw [unchanged]
    exact ⟨rfl, h⟩
  · rw [(recordReceipt_ok accepted).1]
    exact ⟨rfl, h⟩

theorem deposits_settlement (h : Positive s) (opts : Options F) (now : Time) (order : RangeOrder)
    (nodeID : String) :
    deposits (recordSettlement sha256 opts now order s nodeID).2 = deposits s ∧
      Positive (recordSettlement sha256 opts now order s nodeID).2 := by
  rcases recordSettlement_cases sha256 opts now order s nodeID with unchanged | ⟨st, _, committed⟩
  · rw [unchanged]
    exact ⟨rfl, h⟩
  · rw [committed]
    exact ⟨deposits_attributed _ s.prepaid, positive_attributed _ h⟩

variable [GoFloat F] {opts : Options F} {now : Time} {draw : Tokens.Draw}
  {nodeID operatorAddr sessionID : String} {deposit : F}

/-- What a successful `Authorize` was paid is the deposit that it grants. -/
theorem authorize_granted
    (ok : (authorize opts now draw s nodeID operatorAddr sessionID deposit).result.isOk = true) :
    ∃ (credit : Prepaid F) (issuer : Tokens.Issuer), 0 < credit.depositAtomic.toInt ∧
      (authorize opts now draw s nodeID operatorAddr sessionID deposit).service =
        { s with issuer, prepaid := s.prepaid.insert sessionID credit } ∧
      paidBy (authorize opts now draw s nodeID operatorAddr sessionID deposit) =
        credit.depositAtomic.toInt := by
  rcases authorize_cases opts now draw s nodeID operatorAddr sessionID deposit with
    ⟨e, stopped, _⟩ | ⟨payload, credit, txid, transfer, approved, funded,
      ⟨e, _, failed⟩ | ⟨token, issuer, _, granted⟩⟩
  · rw [stopped] at ok
    cases ok
  · rw [failed] at ok
    cases ok
  · obtain ⟨_, positive, _⟩ := approve_ok approved
    refine ⟨{ credit with fundingTXID := txid }, issuer, Int64.lt_iff_toInt_lt.mp positive, ?_, ?_⟩
    · rw [granted]
    · rw [granted, fund_ok funded]
      cases opts.wallet with
      | none => rfl
      | some w => exact Word.toNat_toUInt64_of_nonneg (Int64.le_of_lt positive)

theorem positive_record (b : Books F) (op : Op F) (succeeds : Succeeds b op)
    (h : Positive b.service) : Positive (record verify sha256 b op).service := by
  cases op with
  | authorize opts now draw nodeID operatorAddr sessionID deposit =>
    obtain ⟨credit, issuer, funded, service, _⟩ := authorize_granted succeeds
    rw [record, PrepaidAccounting.step, service]
    exact h.insert sessionID funded
  | receipt order r => exact (deposits_receipt verify h order r).2
  | settle opts now order nodeID => exact (deposits_settlement sha256 h opts now order nodeID).2

/-- One step keeps the books balanced exactly when it overwrites no credit. -/
theorem funded_record_iff (b : Books F) (op : Op F) (succeeds : Succeeds b op)
    (h : Positive b.service) (balanced : Funded b) :
    Funded (record verify sha256 b op) ↔ NewSession b op := by
  unfold Funded at balanced ⊢
  cases op with
  | authorize opts now draw nodeID operatorAddr sessionID deposit =>
    obtain ⟨credit, issuer, _, service, paid⟩ := authorize_granted succeeds
    simp only [record, PrepaidAccounting.step, service, paid, ← balanced]
    exact deposits_insert_iff h sessionID credit
  | receipt order r =>
    exact iff_of_true ((deposits_receipt verify h order r).1.trans balanced) trivial
  | settle opts now order nodeID =>
    exact iff_of_true ((deposits_settlement sha256 h opts now order nodeID).1.trans balanced)
      trivial

end steps

/-- In a run whose `Authorize` calls succeed, the deposits of the stored credits
are the money paid in every state exactly when each `Authorize` is for a session
that has no credit yet. -/
theorem deposits_paid_iff {F : Type} [GoFloat F] (verify : List UInt8 → String → List UInt8 → Bool)
    (sha256 : String → List UInt8) (issuer : Tokens.Issuer) (ops : List (Op F))
    (succeed : Run.Along (record verify sha256) Succeeds (opened issuer) ops) :
    Run.Throughout (record verify sha256) Funded (opened issuer) ops ↔
      Run.Along (record verify sha256) NewSession (opened issuer) ops := by
  have empty : Positive (newService F issuer) := fun sessionID p found => by cases found
  exact Run.throughout_iff_along empty rfl (positive_record verify sha256)
    (funded_record_iff verify sha256) succeed

section sample

/-- Session `s` is paid for once. -/
theorem settled_books :
    Run.Along (record anySignature noDigest) Succeeds (opened Tokens.newIssuer) settledRun ∧
    Run.Throughout (record anySignature noDigest) Funded (opened Tokens.newIssuer) settledRun := by
  have succeed : Run.Along (record anySignature noDigest) Succeeds (opened Tokens.newIssuer)
      settledRun := by decide +kernel
  exact ⟨succeed, (deposits_paid_iff anySignature noDigest Tokens.newIssuer settledRun succeed).mpr
    (by decide +kernel)⟩

/-- A second payment for session `s` replaces the first credit. -/
theorem topUp_loses_credit :
    Run.Along (record anySignature noDigest) Succeeds (opened Tokens.newIssuer)
      [fundSession, fundSession] ∧
    deposits (Run.run (record anySignature noDigest) (opened Tokens.newIssuer)
      [fundSession, fundSession]).service = 100000 ∧
    (Run.run (record anySignature noDigest) (opened Tokens.newIssuer)
      [fundSession, fundSession]).paid = 200000 := by
  decide +kernel

end sample

end VeilNet.Guarantees.FundedCredit
