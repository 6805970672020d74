import ImmichRs.Web.Grants

/-!
# Runs of the grant store

Any sequence of confirmations, admissions and revocations, by any owners at any instants.  A grant
is a successful confirmation; the keys of different grants are assumed to differ.
-/

namespace ImmichRs.Web

/-! ## Calls -/

/-- One call on the store. -/
inductive GrantCall
  | confirm (owner : Owner) (request : GrantRequest) (now : Instant)
      (environment : GrantEnvironment) (randomKey : Option String)
  | admitJob (owner : Owner) (receipt : ReceiptRef) (idempotencyKey : String) (now : Instant)
      (environment : GrantEnvironment) (callback : ApplyCapability → Except AdmissionError String)
  | revoke (owner : Owner)

/-- What a call returns. -/
inductive GrantReply
  | confirmed (result : Except GrantError GrantView)
  | answered (reply : AdmissionReply)
  | revoked

/-- A call and what it returned. -/
structure GrantEvent where
  call : GrantCall
  reply : GrantReply

/-- One call, under the store's lock. -/
def GrantStore.call (store : GrantStore) (state : GrantState) :
    GrantCall → GrantState × GrantReply
  | .confirm owner request now environment randomKey =>
      let outcome := store.confirmAt state owner request now environment randomKey
      (outcome.1, .confirmed outcome.2)
  | .admitJob owner receipt idempotencyKey now environment callback =>
      let outcome := store.admitLocked state owner receipt idempotencyKey now environment callback
      (outcome.1, .answered outcome.2)
  | .revoke owner => (state.revokeOwner owner, .revoked)

/-- The calls `events` lead from `start` to a state. -/
inductive GrantStore.RunsFrom (store : GrantStore) (start : GrantState) :
    List GrantEvent → GrantState → Prop
  | nil : store.RunsFrom start [] start
  | call {events : List GrantEvent} {state : GrantState} (run : store.RunsFrom start events state)
      (call : GrantCall) :
      store.RunsFrom start (events ++ [{ call, reply := (store.call state call).2 }])
        (store.call state call).1

/-- A successful confirmation. -/
structure Grant where
  owner : Owner
  receipt : ReceiptRef
  idempotencyKey : String
  deadline : Instant
  deriving DecidableEq

/-- The grant which an event creates. -/
def GrantEvent.grant (store : GrantStore) (event : GrantEvent) : Option Grant :=
  match event.call, event.reply with
  | .confirm owner request now _ _, .confirmed (.ok view) =>
      some (.mk owner request.receipt view.idempotencyKey (now + store.lifetime))
  | _, _ => none

/-- The receipt under which an event admits a job. -/
def GrantEvent.admittedReceipt (event : GrantEvent) : Option ReceiptRef :=
  match event.call, event.reply with
  | .admitJob _ receipt _ _ _ _, .answered { result := .ok (.admitted _), .. } => some receipt
  | _, _ => none

/-- The key of the grant whose capability an event hands to its callback. -/
def GrantEvent.handedKey (event : GrantEvent) : Option String :=
  match event.call, event.reply with
  | .admitJob _ _ idempotencyKey _ _ _, .answered { handed := some _, .. } => some idempotencyKey
  | _, _ => none

/-- The grants of a run. -/
def grantsOf (store : GrantStore) (events : List GrantEvent) : List Grant :=
  events.filterMap (·.grant store)

/-- The receipts which a run admitted. -/
def admittedOf (events : List GrantEvent) : List ReceiptRef :=
  events.filterMap GrantEvent.admittedReceipt

/-- The keys whose capabilities a run handed out. -/
def handedOf (events : List GrantEvent) : List String :=
  events.filterMap GrantEvent.handedKey

/-- Different grants have different keys. -/
def FreshKeys (grants : List Grant) : Prop := (grants.map Grant.idempotencyKey).Nodup

/-- Grants with one key are one grant. -/
theorem FreshKeys.eq_of_key {grants : List Grant} (fresh : FreshKeys grants) {first second : Grant}
    (member : first ∈ grants) (other : second ∈ grants)
    (same : first.idempotencyKey = second.idempotencyKey) : first = second :=
  List.inj_on_of_nodup_map fresh member other same

/-! ## One call -/

/-- What an admission can do. -/
inductive GrantStore.Admits (store : GrantStore) (state : GrantState) (owner : Owner)
    (receipt : ReceiptRef) (idempotencyKey : String) (now : Instant)
    (callback : ApplyCapability → Except AdmissionError String) :
    GrantState × AdmissionReply → Prop
  | refused {error : GrantError} (early : ∀ reason, error ≠ .admission reason) :
      store.Admits state owner receipt idempotencyKey now callback (state, .refused error)
  | dropped {error : GrantError} (early : ∀ reason, error ≠ .admission reason)
      {entry : GrantEntry} (held : state.entries.lookup owner = some entry)
      (named : entry.receipt = receipt ∧ entry.idempotencyKey = idempotencyKey)
      (unused : ∀ jobId, entry.status = .consumed jobId → entry.deadline ≤ now) :
      store.Admits state owner receipt idempotencyKey now callback
        (state.revokeOwner owner, .refused error)
  | existing {entry : GrantEntry} {jobId : String}
      (held : state.entries.lookup owner = some entry)
      (named : entry.receipt = receipt ∧ entry.idempotencyKey = idempotencyKey)
      (early : now < entry.deadline) (consumed : entry.status = .consumed jobId) :
      store.Admits state owner receipt idempotencyKey now callback
        (state, { result := .ok (.existing jobId), handed := none })
  | failed {entry : GrantEntry} {capability : ApplyCapability} {error : AdmissionError}
      (held : state.entries.lookup owner = some entry)
      (named : entry.receipt = receipt ∧ entry.idempotencyKey = idempotencyKey)
      (early : now < entry.deadline) (pending : entry.status = .pending (some capability))
      (unspent : receipt ∉ state.spentReceipts) (answer : callback capability = .error error) :
      store.Admits state owner receipt idempotencyKey now callback
        (state.revokeOwner owner,
          { result := .error (.admission error), handed := some capability })
  | admitted {entry : GrantEntry} {capability : ApplyCapability} {jobId : String}
      (held : state.entries.lookup owner = some entry)
      (named : entry.receipt = receipt ∧ entry.idempotencyKey = idempotencyKey)
      (early : now < entry.deadline) (pending : entry.status = .pending (some capability))
      (unspent : receipt ∉ state.spentReceipts) (answer : callback capability = .ok jobId) :
      store.Admits state owner receipt idempotencyKey now callback
        ({ entries := state.entries.insert owner { entry with status := .consumed jobId }
           spentReceipts := insert receipt state.spentReceipts },
          { result := .ok (.admitted jobId), handed := some capability })

theorem GrantStore.admits_admitLocked (store : GrantStore) (state : GrantState) (owner : Owner)
    (receipt : ReceiptRef) (idempotencyKey : String) (now : Instant)
    (environment : GrantEnvironment) (callback : ApplyCapability → Except AdmissionError String) :
    store.Admits state owner receipt idempotencyKey now callback
      (store.admitLocked state owner receipt idempotencyKey now environment callback) := by
  unfold GrantStore.admitLocked
  split
  case h_1 => exact .refused (by simp)
  case h_2 entry held =>
    split
    case isTrue => exact .refused (by simp)
    case isFalse same =>
      have named : entry.receipt = receipt ∧ entry.idempotencyKey = idempotencyKey := by
        simpa using same
      split
      case isTrue late => exact .dropped (by simp) held named fun _ _ => late
      case isFalse early =>
        have early : now < entry.deadline := not_le.mp early
        split
        case h_1 jobId consumed => exact .existing held named early consumed
        case h_2 slot pending =>
          have unused : ∀ jobId, entry.status = .consumed jobId → entry.deadline ≤ now := by
            simp [pending]
          split
          case isTrue => exact .dropped (by simp) held named unused
          case isFalse room =>
            split
            case h_1 => exact .refused (by simp)
            case h_2 capability =>
              split
              case isTrue => exact .dropped (by simp) held named unused
              case isFalse =>
                have unspent : receipt ∉ state.spentReceipts := fun spent => room (.inl spent)
                split
                case h_1 error answer => exact .failed held named early pending unspent answer
                case h_2 jobId answer => exact .admitted held named early pending unspent answer

/-- What a confirmation can do. -/
theorem GrantStore.confirmAt_cases (store : GrantStore) (state : GrantState) (owner : Owner)
    (request : GrantRequest) (now : Instant) (environment : GrantEnvironment)
    (randomKey : Option String) :
    (∃ error, store.confirmAt state owner request now environment randomKey =
        (state, .error error)) ∨
      ∃ capability production idempotencyKey,
        prepare store.platform store.limits environment owner request =
          .ok (capability, production) ∧ randomKey = some idempotencyKey ∧
        request.receipt ∉ state.spentReceipts ∧
        store.confirmAt state owner request now environment randomKey =
          ({ state with
              entries := state.entries.insert owner
                { receipt := capability.binding.receipt
                  idempotencyKey
                  deadline := now + store.lifetime
                  status := .pending (some capability) } },
            .ok { idempotencyKey, production }) := by
  cases prepared : prepare store.platform store.limits environment owner request with
  | error error => exact .inl ⟨error, by simp only [GrantStore.confirmAt, prepared]⟩
  | ok outcome =>
      obtain ⟨capability, production⟩ := outcome
      cases randomKey with
      | none => exact .inl ⟨.unavailable, by simp only [GrantStore.confirmAt, prepared]⟩
      | some idempotencyKey =>
          cases found : store.deadline now with
          | none => exact .inl ⟨.unavailable, by simp only [GrantStore.confirmAt, prepared, found]⟩
          | some deadline =>
              obtain rfl := GrantStore.deadline_eq_some found
              by_cases spent : request.receipt ∈ state.spentReceipts
              · exact .inl ⟨.invalid, by
                  simp only [GrantStore.confirmAt, prepared, found, if_pos spent]⟩
              · refine .inr ⟨capability, production, idempotencyKey, rfl, rfl, spent, ?_⟩
                simp only [GrantStore.confirmAt, prepared, found, if_neg spent]

/-! ## The invariant -/

/-- How the state of a store reflects the grants, admissions and capabilities before it. -/
structure GrantState.Traced (grants : List Grant) (admitted : List ReceiptRef)
    (handed : List String) (state : GrantState) : Prop where
  /-- Every entry comes from a confirmation of its owner. -/
  held : ∀ owner entry, state.entries.lookup owner = some entry →
    Grant.mk owner entry.receipt entry.idempotencyKey entry.deadline ∈ grants
  /-- The spent receipts are the admitted ones. -/
  spent : ∀ receipt, receipt ∈ state.spentReceipts ↔ receipt ∈ admitted
  /-- A pending entry still holds its capability. -/
  unused : ∀ owner entry slot, state.entries.lookup owner = some entry →
    entry.status = .pending slot → entry.idempotencyKey ∉ handed
  /-- Only keys of grants are handed out. -/
  issued : handed ⊆ grants.map Grant.idempotencyKey
  admittedOnce : admitted.Nodup
  handedOnce : handed.Nodup

theorem GrantState.traced_empty : GrantState.empty.Traced [] [] [] := by
  constructor <;> simp [GrantState.empty]

section

variable {grants : List Grant} {admitted : List ReceiptRef} {handed : List String}
  {state : GrantState} (traced : state.Traced grants admitted handed)

include traced

/-- Entries with one key have one owner. -/
theorem GrantState.Traced.owner_eq (fresh : FreshKeys grants) {first second : Owner}
    {entry other : GrantEntry} (held : state.entries.lookup first = some entry)
    (found : state.entries.lookup second = some other)
    (same : entry.idempotencyKey = other.idempotencyKey) : first = second :=
  congrArg Grant.owner
    (fresh.eq_of_key (traced.held first entry held) (traced.held second other found) same)

theorem GrantState.Traced.revoke (owner : Owner) :
    (state.revokeOwner owner).Traced grants admitted handed := by
  have kept : ∀ other entry, (state.revokeOwner owner).entries.lookup other = some entry →
      state.entries.lookup other = some entry := by
    intro other entry found
    by_cases same : other = owner
    · subst same
      rw [GrantState.revokeOwner, AList.lookup_erase] at found
      cases found
    · rwa [GrantState.revokeOwner, AList.lookup_erase_ne same] at found
  exact
    { traced with
      held := fun other entry found => traced.held other entry (kept other entry found)
      unused := fun other entry slot found =>
        traced.unused other entry slot (kept other entry found) }

/-- A confirmation adds a grant with a fresh key. -/
theorem GrantState.Traced.confirm (owner : Owner) (entry : GrantEntry)
    (fresh : entry.idempotencyKey ∉ grants.map Grant.idempotencyKey) :
    ({ state with entries := state.entries.insert owner entry } : GrantState).Traced
      (grants ++ [.mk owner entry.receipt entry.idempotencyKey entry.deadline]) admitted
      handed where
  held := by
    intro other found lookup
    by_cases same : other = owner
    · subst same
      rw [AList.lookup_insert, Option.some.injEq] at lookup
      subst lookup
      exact List.mem_append_right _ List.mem_cons_self
    · rw [AList.lookup_insert_ne same] at lookup
      exact List.mem_append_left _ (traced.held other found lookup)
  spent := traced.spent
  unused := by
    intro other found slot lookup pending
    by_cases same : other = owner
    · subst same
      rw [AList.lookup_insert, Option.some.injEq] at lookup
      subst lookup
      exact fun member => fresh (traced.issued member)
    · rw [AList.lookup_insert_ne same] at lookup
      exact traced.unused other found slot lookup pending
  issued := by
    rw [List.map_append]
    exact fun key member => List.mem_append_left _ (traced.issued member)
  admittedOnce := traced.admittedOnce
  handedOnce := traced.handedOnce

/-- Handing out a pending capability, whose entry is then replaced or dropped. -/
theorem GrantState.Traced.hand (fresh : FreshKeys grants) {owner : Owner} {entry : GrantEntry}
    {slot : Option ApplyCapability} (held : state.entries.lookup owner = some entry)
    (pending : entry.status = .pending slot) :
    (∀ other found inner, state.entries.lookup other = some found → other ≠ owner →
      found.status = .pending inner →
        found.idempotencyKey ∉ handed ++ [entry.idempotencyKey]) ∧
      handed ++ [entry.idempotencyKey] ⊆ grants.map Grant.idempotencyKey ∧
      (handed ++ [entry.idempotencyKey]).Nodup := by
  refine ⟨?_, ?_, ?_⟩
  · intro other found inner lookup different waiting member
    rcases List.mem_append.mp member with before | now
    · exact traced.unused other found inner lookup waiting before
    · exact different (traced.owner_eq fresh lookup held (List.mem_singleton.mp now))
  · intro key member
    rcases List.mem_append.mp member with before | now
    · exact traced.issued before
    · rw [List.mem_singleton.mp now]
      exact List.mem_map_of_mem (traced.held owner entry held)
  · rw [List.nodup_append_comm]
    exact List.nodup_cons.mpr ⟨traced.unused owner entry slot held pending, traced.handedOnce⟩

theorem GrantState.Traced.fail (fresh : FreshKeys grants) {owner : Owner} {entry : GrantEntry}
    {slot : Option ApplyCapability} (held : state.entries.lookup owner = some entry)
    (pending : entry.status = .pending slot) :
    (state.revokeOwner owner).Traced grants admitted (handed ++ [entry.idempotencyKey]) := by
  obtain ⟨others, issued, once⟩ := traced.hand fresh held pending
  refine { traced.revoke owner with issued, handedOnce := once, unused := ?_ }
  intro other found inner lookup waiting
  by_cases same : other = owner
  · subst same
    rw [GrantState.revokeOwner, AList.lookup_erase] at lookup
    cases lookup
  · rw [GrantState.revokeOwner, AList.lookup_erase_ne same] at lookup
    exact others other found inner lookup same waiting

theorem GrantState.Traced.admitJob (fresh : FreshKeys grants) {owner : Owner} {entry : GrantEntry}
    {slot : Option ApplyCapability} (held : state.entries.lookup owner = some entry)
    (pending : entry.status = .pending slot) (unspent : entry.receipt ∉ state.spentReceipts)
    (jobId : String) :
    ({ entries := state.entries.insert owner { entry with status := .consumed jobId }
       spentReceipts := insert entry.receipt state.spentReceipts } : GrantState).Traced grants
      (admitted ++ [entry.receipt]) (handed ++ [entry.idempotencyKey]) := by
  obtain ⟨others, issued, once⟩ := traced.hand fresh held pending
  refine ⟨?_, ?_, ?_, issued, ?_, once⟩
  · intro other found lookup
    by_cases same : other = owner
    · subst same
      rw [AList.lookup_insert, Option.some.injEq] at lookup
      subst lookup
      exact traced.held other entry held
    · rw [AList.lookup_insert_ne same] at lookup
      exact traced.held other found lookup
  · intro receipt
    rw [Finset.mem_insert, List.mem_append, List.mem_singleton, traced.spent, or_comm]
  · intro other found inner lookup waiting
    by_cases same : other = owner
    · subst same
      rw [AList.lookup_insert, Option.some.injEq] at lookup
      subst lookup
      cases waiting
    · rw [AList.lookup_insert_ne same] at lookup
      exact others other found inner lookup same waiting
  · rw [List.nodup_append_comm]
    exact List.nodup_cons.mpr ⟨fun member => unspent ((traced.spent _).mpr member),
      traced.admittedOnce⟩

end

/-! ## Runs -/

variable {store : GrantStore} {events : List GrantEvent} {state : GrantState}

theorem filterMap_snoc {α β : Type} (f : α → Option β) (items : List α) (item : α) :
    (items ++ [item]).filterMap f = items.filterMap f ++ (f item).toList := by
  rw [List.filterMap_append, List.filterMap_cons]
  cases f item <;> rfl

theorem grantsOf_snoc (events : List GrantEvent) (event : GrantEvent) :
    grantsOf store (events ++ [event]) = grantsOf store events ++ (event.grant store).toList :=
  filterMap_snoc _ _ _

theorem admittedOf_snoc (events : List GrantEvent) (event : GrantEvent) :
    admittedOf (events ++ [event]) = admittedOf events ++ event.admittedReceipt.toList :=
  filterMap_snoc _ _ _

theorem handedOf_snoc (events : List GrantEvent) (event : GrantEvent) :
    handedOf (events ++ [event]) = handedOf events ++ event.handedKey.toList :=
  filterMap_snoc _ _ _

theorem FreshKeys.earlier {earlier later : List GrantEvent}
    (fresh : FreshKeys (grantsOf store (earlier ++ later))) :
    FreshKeys (grantsOf store earlier) := by
  rw [FreshKeys, grantsOf, List.filterMap_append, List.map_append] at fresh
  exact fresh.of_append_left

/-- One call keeps the trace. -/
theorem GrantState.Traced.call
    (traced : state.Traced (grantsOf store events) (admittedOf events) (handedOf events))
    (call : GrantCall)
    (fresh : FreshKeys
      (grantsOf store (events ++ [{ call, reply := (store.call state call).2 }]))) :
    (store.call state call).1.Traced
      (grantsOf store (events ++ [{ call, reply := (store.call state call).2 }]))
      (admittedOf (events ++ [{ call, reply := (store.call state call).2 }]))
      (handedOf (events ++ [{ call, reply := (store.call state call).2 }])) := by
  have earlier := fresh.earlier
  rw [grantsOf_snoc] at fresh
  rw [grantsOf_snoc, admittedOf_snoc, handedOf_snoc]
  cases call with
  | confirm owner request now environment randomKey =>
      simp only [GrantStore.call, GrantEvent.grant, GrantEvent.admittedReceipt,
        GrantEvent.handedKey, Option.toList_none, List.append_nil] at fresh ⊢
      obtain ⟨error, refused⟩ | ⟨capability, production, idempotencyKey, prepared, rfl, -, made⟩ :=
        store.confirmAt_cases state owner request now environment randomKey
      · simpa only [refused, Option.toList_none, List.append_nil] using traced
      · have receipt := (prepare_eq_ok prepared).receipt
        simp only [made, ← receipt, Option.toList_some] at fresh ⊢
        rw [FreshKeys, List.map_append, List.nodup_append_comm] at fresh
        exact traced.confirm owner (.mk capability.binding.receipt idempotencyKey
          (now + store.lifetime) (.pending (some capability))) (List.nodup_cons.mp fresh).1
  | admitJob owner receipt idempotencyKey now environment callback =>
      have admits :=
        store.admits_admitLocked state owner receipt idempotencyKey now environment callback
      simp only [GrantStore.call, GrantEvent.grant, GrantEvent.admittedReceipt,
        GrantEvent.handedKey, Option.toList_none, List.append_nil]
      generalize store.admitLocked state owner receipt idempotencyKey now environment callback =
        outcome at admits ⊢
      cases admits with
      | refused | existing => simpa only [AdmissionReply.refused, Option.toList_none, List.append_nil] using traced
      | dropped =>
          simpa only [AdmissionReply.refused, Option.toList_none, List.append_nil] using traced.revoke owner
      | failed held named early pending =>
          obtain ⟨rfl, rfl⟩ := named
          simpa only [Option.toList_none, Option.toList_some, List.append_nil] using
            traced.fail earlier held pending
      | admitted held named early pending unspent =>
          obtain ⟨rfl, rfl⟩ := named
          exact traced.admitJob earlier held pending unspent _
  | revoke owner =>
      simpa only [GrantStore.call, GrantEvent.grant, GrantEvent.admittedReceipt,
        GrantEvent.handedKey, Option.toList_none, List.append_nil] using traced.revoke owner

/-- Every state of a run reflects the calls before it. -/
theorem GrantStore.RunsFrom.traced (run : store.RunsFrom .empty events state)
    (fresh : FreshKeys (grantsOf store events)) :
    state.Traced (grantsOf store events) (admittedOf events) (handedOf events) := by
  induction run with
  | nil => exact GrantState.traced_empty
  | call run call induction => exact (induction fresh.earlier).call call fresh

/-! ## Single use -/

/-- A call by which an owner replaces or gives up a grant. -/
def GrantEvent.Withdraws (grant : Grant) (event : GrantEvent) : Prop :=
  match event.call with
  | .confirm owner _ _ _ _ | .revoke owner => owner = grant.owner
  | .admitJob .. => False

/-- A request for a grant at or after its deadline. -/
def GrantEvent.Expires (grant : Grant) (event : GrantEvent) : Prop :=
  match event.call with
  | .admitJob owner receipt idempotencyKey now _ _ =>
      owner = grant.owner ∧ receipt = grant.receipt ∧ idempotencyKey = grant.idempotencyKey ∧
        grant.deadline ≤ now
  | _ => False

/-- A consumed entry stays as long as nothing ends its grant. -/
theorem GrantStore.RunsFrom.consumed {start : GrantState} (run : store.RunsFrom start events state)
    {owner : Owner} {entry : GrantEntry} {jobId : String}
    (held : start.entries.lookup owner = some entry) (consumed : entry.status = .consumed jobId)
    (undisturbed : ∀ event ∈ events,
      ¬ event.Withdraws (.mk owner entry.receipt entry.idempotencyKey entry.deadline) ∧
        ¬ event.Expires (.mk owner entry.receipt entry.idempotencyKey entry.deadline)) :
    state.entries.lookup owner = some entry := by
  induction run with
  | nil => exact held
  | @call events state run call induction =>
      have kept := induction fun event member => undisturbed event (List.mem_append_left _ member)
      have last := undisturbed _ (List.mem_append_right events List.mem_cons_self)
      cases call with
      | confirm other request now environment randomKey =>
          have different : owner ≠ other := fun same => last.1 same.symm
          simp only [GrantStore.call]
          obtain ⟨error, refused⟩ | ⟨capability, production, idempotencyKey, -, -, -, made⟩ :=
            store.confirmAt_cases state other request now environment randomKey
          · rw [refused]
            exact kept
          · rw [made]
            exact (AList.lookup_insert_ne different).trans kept
      | revoke other =>
          have different : owner ≠ other := fun same => last.1 same.symm
          exact (AList.lookup_erase_ne different).trans kept
      | admitJob other receipt idempotencyKey now environment callback =>
          have admits :=
            store.admits_admitLocked state other receipt idempotencyKey now environment callback
          simp only [GrantStore.call]
          generalize store.admitLocked state other receipt idempotencyKey now environment callback =
            outcome at admits ⊢
          have foreign : ∀ {found : GrantEntry} {slot : Option ApplyCapability},
              state.entries.lookup other = some found → found.status = .pending slot →
                owner ≠ other := by
            rintro found slot lookup pending rfl
            rw [kept, Option.some.injEq] at lookup
            subst lookup
            rw [consumed] at pending
            cases pending
          cases admits with
          | refused | existing => exact kept
          | dropped early found named unused =>
              have different : owner ≠ other := by
                rintro rfl
                rw [kept, Option.some.injEq] at found
                subst found
                exact last.2 ⟨rfl, named.1.symm, named.2.symm, unused jobId consumed⟩
              exact (AList.lookup_erase_ne different).trans kept
          | failed found named early pending =>
              exact (AList.lookup_erase_ne (foreign found pending)).trans kept
          | admitted found named early pending =>
              exact (AList.lookup_insert_ne (foreign found pending)).trans kept

/-- What the store promises over every run: interleaved calls by any owners, at any instants. -/
structure GrantStore.SingleUse (store : GrantStore) : Prop where
  /-- Each receipt is admitted at most once. -/
  admitsOnce : ∀ {events state}, store.RunsFrom .empty events state →
    FreshKeys (grantsOf store events) → (admittedOf events).Nodup
  /-- Each grant's capability is handed to the callback at most once. -/
  handsOnce : ∀ {events state}, store.RunsFrom .empty events state →
    FreshKeys (grantsOf store events) → (handedOf events).Nodup
  /-- An admission which succeeds does so under a grant, before its deadline. -/
  inTime : ∀ {events state}, store.RunsFrom .empty events state →
    FreshKeys (grantsOf store events) →
    ∀ owner receipt idempotencyKey now environment callback admission,
      (store.admitLocked state owner receipt idempotencyKey now environment callback).2.result =
        .ok admission →
      ∃ grant ∈ grantsOf store events, grant.owner = owner ∧ grant.receipt = receipt ∧
        grant.idempotencyKey = idempotencyKey ∧ now < grant.deadline
  /-- A failed callback leaves the receipt unspent and its owner without a grant. -/
  failure : ∀ {events state}, store.RunsFrom .empty events state →
    FreshKeys (grantsOf store events) →
    ∀ owner receipt idempotencyKey now environment callback error,
      let outcome :=
        store.admitLocked state owner receipt idempotencyKey now environment callback
      outcome.2.result = .error (.admission error) →
      receipt ∉ outcome.1.spentReceipts ∧ receipt ∉ admittedOf events ∧
        outcome.1.entries.lookup owner = none
  /-- An admitted request is answered with its job until its owner withdraws the grant or a request
  for it finds it expired. -/
  repeats : ∀ {events state}, store.RunsFrom .empty events state →
    FreshKeys (grantsOf store events) →
    ∀ grant ∈ grantsOf store events, ∀ now environment callback jobId,
      let outcome := store.admitLocked state grant.owner grant.receipt grant.idempotencyKey now
        environment callback
      outcome.2.result = .ok (.admitted jobId) →
      ∀ between final, store.RunsFrom outcome.1 between final →
      (∀ event ∈ between, ¬ event.Withdraws grant ∧ ¬ event.Expires grant) →
      ∀ later environment callback, later < grant.deadline →
        store.admitLocked final grant.owner grant.receipt grant.idempotencyKey later environment
          callback = (final, { result := .ok (.existing jobId), handed := none })

theorem GrantStore.singleUse (store : GrantStore) : store.SingleUse where
  admitsOnce run fresh := (run.traced fresh).admittedOnce
  handsOnce run fresh := (run.traced fresh).handedOnce
  inTime := by
    intro events state run fresh owner receipt idempotencyKey now environment callback admission
      succeeded
    have traced := run.traced fresh
    have admits :=
      store.admits_admitLocked state owner receipt idempotencyKey now environment callback
    generalize store.admitLocked state owner receipt idempotencyKey now environment callback =
      outcome at admits succeeded
    cases admits with
    | refused | dropped | failed => cases succeeded
    | existing held named early | admitted held named early =>
        exact ⟨_, traced.held _ _ held, rfl, named.1, named.2, early⟩
  failure := by
    intro events state run fresh owner receipt idempotencyKey now environment callback error
      outcome failed
    have traced := run.traced fresh
    have admits :=
      store.admits_admitLocked state owner receipt idempotencyKey now environment callback
    rw [show store.admitLocked state owner receipt idempotencyKey now environment callback =
      outcome from rfl] at admits
    clear_value outcome
    cases admits with
    | refused early | dropped early => exact absurd (Except.error.inj failed) (early error)
    | existing | admitted => cases failed
    | failed held named early pending unspent =>
        exact ⟨unspent, fun member => unspent ((traced.spent receipt).mpr member),
          AList.lookup_erase _ _⟩
  repeats := by
    intro events state run fresh grant member now environment callback jobId outcome admitted
      between final continued undisturbed later laterEnvironment laterCallback early
    have traced := run.traced fresh
    have admits := store.admits_admitLocked state grant.owner grant.receipt grant.idempotencyKey
      now environment callback
    rw [show store.admitLocked state grant.owner grant.receipt grant.idempotencyKey now environment
      callback = outcome from rfl] at admits
    clear_value outcome
    cases admits with
    | refused | dropped | failed | existing => cases admitted
    | @admitted entry capability name held named soon pending unspent =>
        obtain rfl : name = jobId := by simpa using admitted
        obtain ⟨receipt, key⟩ := named
        have same := fresh.eq_of_key (traced.held _ _ held) member key
        have deadline : entry.deadline = grant.deadline := congrArg Grant.deadline same
        have kept := continued.consumed (AList.lookup_insert _) rfl fun event inside => by
          simpa only [same] using undisturbed event inside
        rw [GrantStore.admitLocked, kept]
        simp only [receipt, key, ne_eq, not_true_eq_false, or_self, if_false, deadline,
          not_le.mpr early]

/-! ## An expired request before an earlier one -/

/-- A store with the default limits. -/
def sampleStore (platform : Platform) : GrantStore where
  platform
  limits := .default
  horizon := 2 ^ 64 * 1000000000

/-- A console with one dry run, which has just completed. -/
def sampleConsole (platform : Platform) : GrantEnvironment :=
  sampleEnvironment platform (samplePlan .folder []) 0 (fun _ => 0) fun _ => .absent

/-- The capability for that dry run. -/
def sampleApply : ApplyCapability :=
  sampleCapability .reference (samplePlan .folder []) 0#256 ⟨0#128⟩ 0

/-- The grant for that dry run. -/
def sampleEntry (status : GrantStatus) : GrantEntry where
  receipt := ⟨0#128⟩
  idempotencyKey := "key"
  deadline := (sampleStore .reference).lifetime
  status

/-- The store with that grant. -/
def sampleGranted : GrantState where
  entries := AList.insert 0#256 (sampleEntry (.pending (some sampleApply))) ∅
  spentReceipts := ∅

/-- The store after its admission. -/
def sampleConsumed : GrantState where
  entries := sampleGranted.entries.insert 0#256 (sampleEntry (.consumed "job"))
  spentReceipts := {⟨0#128⟩}

/-- The confirmation which creates it. -/
def sampleConfirmation : GrantEvent where
  call := .confirm 0#256 (sampleRequest ⟨0#128⟩) 0 (sampleConsole .reference) (some "key")
  reply := .confirmed (.ok { idempotencyKey := "key", production := false })

theorem runsFrom_sampleConfirmation :
    (sampleStore .reference).RunsFrom .empty [sampleConfirmation] sampleGranted := by
  have deadline : (sampleStore .reference).deadline 0 = some (sampleStore .reference).lifetime := by
    decide
  have prepared : prepare (sampleStore .reference).platform (sampleStore .reference).limits
      (sampleConsole .reference) 0#256 (sampleRequest ⟨0#128⟩) = .ok (sampleApply, false) :=
    prepare_sample .reference rfl 0#256 ⟨0#128⟩ (le_refl 0) (by decide) rfl
  have confirmed : (sampleStore .reference).call .empty sampleConfirmation.call =
      (sampleGranted, sampleConfirmation.reply) := by
    rw [sampleConfirmation, GrantStore.call, GrantStore.confirmAt, prepared, deadline]
    rfl
  have run : (sampleStore .reference).RunsFrom .empty
      [{ call := sampleConfirmation.call
         reply := ((sampleStore .reference).call .empty sampleConfirmation.call).2 }]
      ((sampleStore .reference).call .empty sampleConfirmation.call).1 := .call .nil _
  rwa [confirmed] at run

/-- A grant is admitted, found expired by a call with a late instant, and then asked for again by
a call which had read the clock before the deadline. -/
theorem sampleStore_forgets_admission :
    ∃ events state, (sampleStore .reference).RunsFrom .empty events state ∧
      FreshKeys (grantsOf (sampleStore .reference) events) ∧
      ∃ grant ∈ grantsOf (sampleStore .reference) events, ∃ now environment callback jobId,
        ((sampleStore .reference).admitLocked state grant.owner grant.receipt grant.idempotencyKey
          now environment callback).2.result = .ok (.admitted jobId) ∧
        ∃ between final, (sampleStore .reference).RunsFrom
            ((sampleStore .reference).admitLocked state grant.owner grant.receipt
              grant.idempotencyKey now environment callback).1 between final ∧
          (∀ event ∈ between, ¬ event.Withdraws grant) ∧
          ∃ later environment callback, later < grant.deadline ∧
            ((sampleStore .reference).admitLocked final grant.owner grant.receipt
              grant.idempotencyKey later environment callback).2.result = .error .invalid := by
  have grants : grantsOf (sampleStore .reference) [sampleConfirmation] =
      [.mk 0#256 ⟨0#128⟩ "key" (0 + (sampleStore .reference).lifetime)] := rfl
  have current : bindingIsCurrent .reference (sampleConsole .reference) sampleApply.binding = true :=
    sampleCapability_current .reference _ 0#256 ⟨0#128⟩ 0 (fun _ => 0) fun _ => .absent
  have early : ¬ (sampleStore .reference).lifetime ≤ 1 := by decide
  have admitted : (sampleStore .reference).admitLocked sampleGranted 0#256 ⟨0#128⟩ "key" 1
      (sampleConsole .reference) (fun _ => .ok "job") =
        (sampleConsumed, { result := .ok (.admitted "job"), handed := some sampleApply }) := by
    have held : sampleGranted.entries.lookup 0#256 =
        some (sampleEntry (.pending (some sampleApply))) := AList.lookup_insert _
    have room : ¬ (⟨0#128⟩ ∈ sampleGranted.spentReceipts ∨
        (sampleStore .reference).limits.historyRetainedRows ≤
          sampleGranted.spentReceipts.card) := by decide
    have usable : ¬ (sampleApply.prepared.isProduction ≠
        sampleApply.binding.backupReferenceSha256.isSome ∨
        bindingIsCurrent (sampleStore .reference).platform (sampleConsole .reference)
          sampleApply.binding = false) := by
      rintro (production | stale)
      · exact production rfl
      · exact Bool.false_ne_true (stale.symm.trans current)
    rw [GrantStore.admitLocked, held]
    simp only [sampleEntry, ne_eq, not_true_eq_false, or_self, if_false, early, if_neg room,
      if_neg usable]
    rfl
  refine ⟨_, _, runsFrom_sampleConfirmation, ?_, _, grants ▸ List.mem_cons_self, 1,
    sampleConsole .reference, fun _ => .ok "job", "job", ?_, ?_⟩
  · rw [grants]
    exact List.nodup_singleton _
  · rw [admitted]
  · rw [admitted]
    refine ⟨_, _, .call .nil (.admitJob 0#256 ⟨0#128⟩ "key" (sampleStore .reference).lifetime
      (sampleConsole .reference) fun _ => .ok "job"), ?_, 1, sampleConsole .reference,
      fun _ => .ok "job", ?_, ?_⟩
    · intro event member
      rw [List.mem_singleton.mp member]
      exact id
    · decide
    · rw [show ((sampleStore .reference).call sampleConsumed (.admitJob 0#256 ⟨0#128⟩ "key"
        (sampleStore .reference).lifetime (sampleConsole .reference) fun _ => .ok "job")).1 =
          sampleConsumed.revokeOwner 0#256 from rfl, GrantStore.admitLocked,
        show (sampleConsumed.revokeOwner 0#256).entries.lookup 0#256 = none from
          AList.lookup_erase _ _]
      rfl

end ImmichRs.Web
