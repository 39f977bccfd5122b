import MessageIntake.Proofs.Consumer.Flags

/-!
# The discipline of deliveries upholds the books

Under the discipline `handling`, and with what is known of the
transaction, the books and the flags are kept by every request
(`handling_upholds`). What the books then say of a run is the second
half: never is more settled than was taken, and when nobody has anything
in hand, what was settled is what was refused and what was ordered.
-/

namespace MessageIntake.Settlement

open Client Transaction

variable {t : TransactionId} {A : Audience t} {channels : Nat → Option ChannelId}

/-- What an answer leaves in hand, save for the answer to a look at a
flag. -/
theorem exists_after {g : Hand} {r : Request} (hacts : g.Acts t r)
    (hsettle : ∀ f, r ≠ .under (.settle f)) (a : r.Answer) :
    ∃ g', g.After r a g' ∧ ∀ e call, g' ≠ .told e call := by
  cases hacts with
  | tell => exact ⟨_, rfl, nofun⟩
  | take =>
    refine ⟨_, rfl, fun e call => ?_⟩
    cases Hand.given _ a <;> nofun
  | flag => exact ⟨_, rfl, nofun⟩
  | enlist => cases a <;> exact ⟨_, rfl, nofun⟩
  | handBack => exact ⟨_, rfl, nofun⟩
  | settle => exact absurd rfl (hsettle _)
  | @call channel call hsettles =>
    cases call with
    | acknowledge | reject => exact ⟨_, rfl, nofun⟩
    | cancel => cases hsettles

theorem made?_eq_none {S : Surroundings} {i : Nat} {r : Request} (h : r ≠ .under .newFlag)
    (s s' : Setting S) (answer : Option r.Answer) :
    made? (⟨i, s, r, answer, s'⟩ : Event interface (Setting S)) = none := by
  match r with
  | .under .newFlag => exact absurd rfl h
  | .under (.queue _ _) | .under (.lifecycle _ _) | .under (.transaction _ _)
  | .under (.settle _) | .outside _ | .notify _ _ => rfl

section Steps

variable {tr : Trace A.toSurroundings} {s s' : Setting A.toSurroundings} {gs : List Hand} {i : Nat}

/-- A thread makes a flag for the delivery that it has taken. -/
theorem step_flag {channel : ChannelId} {d : Delivery} {visit : Visit} {signal : Signal}
    {flag : EnlistmentId} (hbooks : Books t channels tr gs) (hmarks : Marks t tr s gs)
    (hg : gs[i]? = some (.taken channel d))
    (hserve : Server.serve (I := interface) visit s (.under .newFlag) =
      .answers s' signal flag) :
    Books t channels (tr ++ [⟨i, s, Request.under .newFlag, some flag, s'⟩])
        (gs.set i (.flagged channel d flag)) ∧
      Marks t (tr ++ [⟨i, s, Request.under .newFlag, some flag, s'⟩]) s'
        (gs.set i (.flagged channel d flag)) := by
  cases hserve
  exact ⟨hbooks.step hg (enters_of_acts .flag nofun nofun rfl s _),
    hmarks.make hg rfl rfl rfl nofun⟩

/-- An enlistment that was told to settle finds its flag not set, and
sets it. -/
theorem step_settle {e : Enlistment} {call : Channel.Call} {ds : List (Option Duty)}
    {visit : Visit} {signal : Signal} {fresh : Bool} (hbooks : Books t channels tr gs)
    (hmarks : Marks t tr s gs) (hstands : Stands t tr s ds) (hg : gs[i]? = some (.told e call))
    (hserve : Server.serve (I := interface) visit s (.under (.settle e.flag)) =
      .answers s' signal fresh) :
    fresh = true ∧
      Books t channels (tr ++ [⟨i, s, Request.under (.settle e.flag), some fresh, s'⟩])
        (gs.set i (.settling e.channel call)) ∧
      Marks t (tr ++ [⟨i, s, Request.under (.settle e.flag), some fresh, s'⟩]) s'
        (gs.set i (.settling e.channel call)) := by
  have hunset := hmarks.fresh hbooks hstands.underway hg
  have hwon := (hmarks.telling i e.flag ⟨e, call, hg, rfl⟩).1
  cases hserve
  have hfresh : (!s.world.settled.get e.flag) = true := by rw [hunset, Bool.not_false]
  exact ⟨hfresh, hbooks.step hg (enters_of_acts .settle nofun nofun ⟨hfresh, rfl⟩ s _),
    hmarks.settle hg rfl (fun j hj => hstands.eq_of_mem_winners hwon hj) rfl rfl nofun⟩

/-- An enlistment is told. -/
theorem step_notice {e : Enlistment} {notice : Notice} {ds : List (Option Duty)}
    (hbooks : Books t channels tr gs) (hmarks : Marks t tr s gs) (hg : gs[i]? = some .empty)
    (hstands : Stands t (tr ++ [⟨i, s, Request.notify (.delivery e) notice, none, s⟩]) s ds) :
    Books t channels (tr ++ [⟨i, s, Request.notify (.delivery e) notice, none, s⟩])
        (gs.set i (.ofNotice e notice)) ∧
      Marks t (tr ++ [⟨i, s, Request.notify (.delivery e) notice, none, s⟩]) s
        (gs.set i (.ofNotice e notice)) := by
  refine ⟨hbooks.step hg (enters_notice e notice s s), ?_⟩
  cases hcall : e.call? notice with
  | none =>
    refine hmarks.keep hg rfl rfl rfl fun e' call h => ?_
    simp [Hand.ofNotice, hcall] at h
  | some call =>
    have horder : ordered? (.delivery e, notice) = some (e, call) := by
      simp [ordered?, Participant.enlistment?, hcall]
    have hwon := hstands.teller_won _ (List.mem_append_right _ List.mem_cons_self) rfl
    have hfirst : e.flag ∉ toldFlags tr :=
      hmarks.first (e := ⟨i, s, Request.notify (.delivery e) notice, none, s⟩) hbooks rfl
        horder hstands.underway
    simp only [Hand.ofNotice, hcall, Option.map_some, Option.getD_some]
    exact hmarks.tell hg rfl horder hwon hfirst rfl rfl

end Steps

/-- **The discipline of deliveries upholds the books and the flags.** -/
theorem handling_upholds : (handling t).Upholds
    (fun (tr : Trace A.toSurroundings) s => ∃ ds, Stands t tr s ds)
    (fun tr s gs => Books t channels tr gs ∧ Marks t tr s gs) where
  answers := by
    intro tr s s' gs i g visit r signal a ⟨hbooks, hmarks⟩ ⟨ds, hstands⟩ hg hpermit hserve _
    -- two sections touch the flags, and nothing else does
    by_cases hflag : r = .under .newFlag
    · subst hflag
      cases hpermit.resolve_left id with
      | flag => exact ⟨_, rfl, step_flag hbooks hmarks hg hserve⟩
    by_cases hsettle : ∃ f, r = .under (.settle f)
    · obtain ⟨f, rfl⟩ := hsettle
      cases hpermit.resolve_left id with
      | settle =>
        obtain ⟨hfresh, hkept⟩ := step_settle hbooks hmarks hstands hg hserve
        exact ⟨_, ⟨hfresh, rfl⟩, hkept⟩
    have hflags := serve_flags hflag (fun f hf => hsettle ⟨f, hf⟩) visit s
    rw [hserve] at hflags
    rcases hpermit with hplain | hacts
    · have hsilent := silent_of_plain (t := t) (i := i) hplain s s' (some a)
      refine ⟨g, (hplain.after_iff g g a).mpr rfl, hbooks.step hg (hsilent.enters rfl g), ?_⟩
      exact hmarks.keep hg hsilent.made hflags.1 hflags.2 fun _ _ h => h
    · -- a notice has no answer of its own
      have hnotice : ∀ p notice, r ≠ .notify p notice := by
        rintro p notice rfl
        cases p <;> cases hserve
      obtain ⟨g', hafter, huntold⟩ := exists_after hacts (fun f hf => hsettle ⟨f, hf⟩) a
      have henters : Enters t channels i g ⟨i, s, r, some a, s'⟩ g' := enters_of_acts hacts hnotice
        (fun channel hready => hbooks.post i channel (hready ▸ hg)) hafter s s'
      refine ⟨g', hafter, hbooks.step hg henters, ?_⟩
      exact hmarks.keep hg (made?_eq_none hflag s s' (some a)) hflags.1 hflags.2
        fun e call h => absurd h (huntold e call)
  sleeps := by
    intro tr s s' gs i g visit r c deadline ⟨hbooks, hmarks⟩ _ hg hpermit hserve _
    obtain ⟨id, call, rfl⟩ := Request.queue_of_serve_sleeps hserve
    have hflags := serve_flags (r := .under (.queue id call)) nofun nofun visit s
    rw [hserve] at hflags
    have htaken : taken? (⟨i, s, Request.under (.queue id call), none, s'⟩ :
        Event interface (Setting A.toSurroundings)) = none := by
      cases call <;> rfl
    have hbooks' := hbooks.step hg (Silent.enters (t := t) ⟨htaken, rfl, rfl, rfl, rfl⟩ rfl g)
    have hmarks' : Marks t (tr ++ [⟨i, s, Request.under (.queue id call), none, s'⟩]) s'
        (gs.set i g) := hmarks.keep hg rfl hflags.1 hflags.2 fun _ _ h => h
    rw [set_eq_self hg] at hbooks' hmarks'
    exact ⟨hbooks', hmarks'⟩
  runs := by
    intro tr s s' gs i g visit r p ⟨hbooks, hmarks⟩ ⟨ds, hstands⟩ hg hpermit hserve ⟨ds', hstands'⟩
    rcases r.cases_of t with helse | ⟨part, rfl⟩ | ⟨q, notice, rfl⟩
    · exact absurd hserve (helse.serve_ne_runs visit s s' p)
    · cases hserve
    · cases hpermit.resolve_left id
      cases q with
      | delivery e =>
        cases hserve
        exact ⟨_, step_notice hbooks hmarks hg hstands', e.notify_follows notice⟩
      | other id =>
        cases hserve
        refine ⟨.empty, ⟨hbooks.step hg (enters_other id notice s _), ?_⟩,
          (A.uses _ _ _).handles fun _ hr => hr.1⟩
        exact hmarks.keep hg rfl rfl rfl fun _ _ h => h

/-! ## What the books say -/

section Totals

variable {S : Surroundings} {tr : Trace S} {s : Setting S} {gs : List Hand}

/-- The enlistments that were refused. -/
def refusals (t : TransactionId) (tr : Trace S) : List Enlistment := tr.filterMap (refused? t)

/-- The deliveries that were taken, by what they are settled under. -/
def takenKeys (channels : Nat → Option ChannelId) (tr : Trace S) : List DeliveryKey :=
  tr.filterMap (takenKey? channels)

/-- The calls to settle a delivery that were made. -/
def settlements (tr : Trace S) : List (ChannelId × Channel.Call) := tr.filterMap settlement?

/-- What a call settles. -/
def settledKey (settlement : ChannelId × Channel.Call) : DeliveryKey :=
  (settlement.1, settlement.2.tag)

/-- Every attempt is accepted or refused. -/
theorem coe_passedKeys (tr : Trace S) :
    Multiset.ofList (tr.filterMap (passedKey? t)) =
      Multiset.ofList ((enlistments t tr).map Enlistment.key) +
        Multiset.ofList ((refusals t tr).map Enlistment.key) := by
  rw [enlistments, refusals, List.map_filterMap, List.map_filterMap]
  refine coe_filterMap_split (fun e => ?_) tr
  unfold passedKey? accepted? refused?
  rcases attempt? t e with - | ⟨enlistment, - | -⟩ <;> rfl

/-- What is told to settle, as calls on channels. -/
def orderedCalls (told : List (Participant × Notice)) : List (ChannelId × Channel.Call) :=
  (orders told).map fun (enlistment, call) => (enlistment.channel, call)

/-- Every call that is due hands a refused delivery back or is ordered. -/
theorem coe_dues (tr : Trace S) :
    Multiset.ofList (tr.filterMap (due? t)) =
      Multiset.ofList ((refusals t tr).map handBack) +
        Multiset.ofList (orderedCalls (notices tr)) := by
  rw [refusals, orderedCalls, orders, notices, List.filterMap_filterMap, List.map_filterMap,
    List.map_filterMap]
  refine coe_filterMap_split (fun e => ?_) tr
  unfold due?
  cases hrefused : refused? t e with
  | none => rfl
  | some enlistment =>
    have hnotice : notice? e = none := by
      obtain ⟨i, before, r, answer, after⟩ := e
      cases r with
      | notify p notice => cases hrefused
      | under | outside => rfl
    rw [hnotice]
    rfl

/-- What is told to settle is settled under the keys of enlistments. -/
theorem map_settledKey_orderedCalls (told : List (Participant × Notice)) :
    (orderedCalls told).map settledKey = ((orders told).map Prod.fst).map Enlistment.key := by
  rw [orderedCalls, List.map_map, List.map_map]
  refine List.map_congr_left fun order horder => ?_
  obtain ⟨⟨p, notice⟩, -, horder⟩ := List.mem_filterMap.mp horder
  cases p with
  | other id => cases horder
  | delivery e => cases notice <;> cases horder <;> rfl

/-- **No more is settled than was taken**, key by key. -/
theorem Books.settlements_subperm (h : Books t channels tr gs)
    (hunderway : Underway (enlisted t tr) (notices tr)) :
    ((settlements tr).map settledKey).Subperm (takenKeys channels tr) := by
  have hcalls : Multiset.ofList (settlements tr) ≤
      Multiset.ofList ((refusals t tr).map handBack) +
        Multiset.ofList (orderedCalls (notices tr)) := by
    have hbalance := h.calls
    unfold Balanced at hbalance
    rw [← coe_dues, hbalance]
    exact Multiset.le_add_left _ _
  have hordered : Multiset.ofList ((orderedCalls (notices tr)).map settledKey) ≤
      Multiset.ofList ((enlistments t tr).map Enlistment.key) := by
    rw [map_settledKey_orderedCalls, enlistments_eq]
    exact Multiset.coe_le.mpr ((orders_sublist hunderway).map _).subperm
  have htaken : Multiset.ofList (tr.filterMap (passedKey? t)) ≤
      Multiset.ofList (takenKeys channels tr) := by
    have hbalance := h.deliveries
    unfold Balanced at hbalance
    rw [takenKeys, hbalance]
    exact Multiset.le_add_left _ _
  have hrefused : ((refusals t tr).map handBack).map settledKey =
      (refusals t tr).map Enlistment.key := by
    rw [List.map_map]
    rfl
  refine Multiset.coe_le.mp ?_
  calc Multiset.ofList ((settlements tr).map settledKey)
      ≤ Multiset.ofList ((refusals t tr).map Enlistment.key) +
          Multiset.ofList ((orderedCalls (notices tr)).map settledKey) := by
        rw [← hrefused]
        simpa using Multiset.map_le_map (f := settledKey) hcalls
    _ ≤ Multiset.ofList ((refusals t tr).map Enlistment.key) +
          Multiset.ofList ((enlistments t tr).map Enlistment.key) :=
        Multiset.add_le_add_left hordered
    _ = Multiset.ofList (tr.filterMap (passedKey? t)) := by
        rw [coe_passedKeys, add_comm]
    _ ≤ Multiset.ofList (takenKeys channels tr) := htaken

/-- The call that settles an enlisted delivery by an outcome. -/
def verdict? (status : TransactionStatus) (e : Enlistment) : Option (ChannelId × Channel.Call) :=
  match status with
  | .committed => some (e.channel, .acknowledge e.tag)
  | .rolledBack => some (e.channel, .reject e.tag true)
  | .active | .completing | .inDoubt => none

/-- What a completion that is over has ordered. -/
theorem orderedCalls_of_complete {status : TransactionStatus} {told : List (Participant × Notice)}
    (h : Complete (enlisted t tr) status told) :
    orderedCalls told = (enlistments t tr).filterMap (verdict? status) := by
  obtain ⟨asked, notice, -, hstatus, -, rfl⟩ := h
  rw [orderedCalls, orders_messages, List.map_filterMap, enlistments_eq, List.filterMap_filterMap]
  refine List.filterMap_congr fun p _ => ?_
  cases p with
  | other id => rfl
  | delivery e => cases notice <;> cases hstatus <;> rfl

/-- **When nobody has anything in hand**, every delivery that was taken is
enlisted or refused, and exactly the calls that are due were made. -/
theorem Books.at_rest (h : Books t channels tr gs)
    (hrest : ∀ g ∈ gs, g.key? = none ∧ g.call? = none) :
    (takenKeys channels tr).Perm
        ((enlistments t tr).map Enlistment.key ++ (refusals t tr).map Enlistment.key) ∧
      (settlements tr).Perm ((refusals t tr).map handBack ++ orderedCalls (notices tr)) := by
  have hkey : gs.filterMap Hand.key? = [] :=
    List.filterMap_eq_nil_iff.mpr fun g hg => (hrest g hg).1
  have hcall : gs.filterMap Hand.call? = [] :=
    List.filterMap_eq_nil_iff.mpr fun g hg => (hrest g hg).2
  have hdeliveries := h.deliveries
  have hcalls := h.calls
  unfold Balanced at hdeliveries hcalls
  rw [hkey, coe_passedKeys, Multiset.coe_nil, zero_add] at hdeliveries
  rw [hcall, coe_dues, Multiset.coe_nil, zero_add] at hcalls
  exact ⟨Multiset.coe_eq_coe.mp hdeliveries, Multiset.coe_eq_coe.mp hcalls.symm⟩

end Totals

end MessageIntake.Settlement
