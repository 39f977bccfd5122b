import MessageIntake.Proofs.Consumer.Books

/-!
# The flags of enlistments

A flag is made once, belongs to one enlistment, and is set only by it.
That an enlistment which is told to settle finds its flag not set is
`Marks.fresh`: a set flag is one of an enlistment that was told before,
and a completion tells nobody twice. `Marks.keep`, `Marks.make`,
`Marks.tell` and `Marks.settle` are the four kinds of events there are.
-/

namespace MessageIntake.Settlement

open Client Transaction

variable {S : Surroundings} {t : TransactionId} {channels : Nat → Option ChannelId}
variable {tr : Trace S} {s s' : Setting S} {gs : List Hand} {i : Nat} {g g' : Hand}

/-! ## What is enlisted and what is told -/

/-- The enlistments that were accepted. -/
def enlistments (t : TransactionId) (tr : Trace S) : List Enlistment := tr.filterMap (accepted? t)

/-- What the notices to enlistments ask for. -/
def orders (told : List (Participant × Notice)) : List (Enlistment × Channel.Call) :=
  told.filterMap ordered?

/-- The flags that were made. -/
def made (tr : Trace S) : List EnlistmentId := tr.filterMap made?

theorem accepted?_eq (e : Event interface (Setting S)) :
    accepted? t e = (enlisted? t e).bind Participant.enlistment? := by
  obtain ⟨i, before, r, answer, after⟩ := e
  match r with
  | .under (.transaction id (.enlist p)) =>
    rcases answer with - | - | - <;> cases p <;> by_cases hid : id = t <;>
      simp [accepted?, attempt?, enlisted?, Participant.enlistment?, hid]
  | .under (.transaction _ .ensureActive) | .under (.transaction _ .begin)
  | .under (.transaction _ (.finish _)) | .under (.transaction _ .abandon)
  | .under (.transaction _ .look) | .under (.queue _ _) | .under (.lifecycle _ _)
  | .under .newFlag | .under (.settle _) | .outside _ | .notify _ _ => rfl

theorem enlistments_eq (tr : Trace S) :
    enlistments t tr = (enlisted t tr).filterMap Participant.enlistment? := by
  rw [enlistments, enlisted, List.filterMap_filterMap]
  exact List.filterMap_congr fun e _ => accepted?_eq e

/-- Nobody is told to settle by being asked to prepare. -/
theorem orders_messages (asked heard : List Participant) (notice : Notice) :
    orders (messages asked heard notice) = heard.filterMap fun p => ordered? (p, notice) := by
  have hasked : (asked.map (·, Notice.prepare)).filterMap ordered? = [] := by
    refine List.filterMap_eq_nil_iff.mpr fun message hmem => ?_
    obtain ⟨p, -, rfl⟩ := List.mem_map.mp hmem
    cases p <;> rfl
  rw [orders, messages, List.filterMap_append, hasked, List.nil_append, List.filterMap_map]
  rfl

/-- Those who are told to settle are enlisted, and none is told twice. -/
theorem orders_sublist {all : List Participant} {told : List (Participant × Notice)}
    (h : Underway all told) :
    ((orders told).map Prod.fst).Sublist (all.filterMap Participant.enlistment?) := by
  obtain ⟨asked, heard, notice, -, hheard, -, -, rfl⟩ := h
  have hnotice : ∀ p, (ordered? (p, notice)).map Prod.fst =
      if notice = .commit ∨ notice = .rollback then p.enlistment? else none := by
    intro p
    cases p <;> cases notice <;> rfl
  rw [orders_messages, List.map_filterMap]
  simp only [hnotice]
  split
  · exact hheard.sublist.filterMap _
  · simp

/-- The flags of the accepted enlistments are those of some attempts. -/
theorem flags_sublist (tr : Trace S) :
    ((enlistments t tr).map Enlistment.flag).Sublist (tr.filterMap (passedFlag? t)) := by
  induction tr with
  | nil => exact List.Sublist.refl _
  | cons e tr ih =>
    have hone : ((accepted? t e).toList.map Enlistment.flag).Sublist (passedFlag? t e).toList := by
      unfold accepted? passedFlag?
      rcases attempt? t e with - | ⟨enlistment, - | -⟩ <;> simp
    rw [enlistments, filterMap_cons_toList, filterMap_cons_toList, List.map_append]
    exact hone.append ih

/-- The flags of the enlistments are made, each for one of them. -/
theorem enlistments_flags (h : Books t channels tr gs) (hnodup : (made tr).Nodup) :
    ((enlistments t tr).map Enlistment.flag).Nodup ∧
      ∀ e ∈ enlistments t tr, e.flag ∈ made tr := by
  have hle : ((tr.filterMap (passedFlag? t) : List EnlistmentId) : Multiset EnlistmentId) ≤
      (made tr : List EnlistmentId) := by
    have hflags := h.flags
    unfold Balanced at hflags
    rw [made, hflags]
    exact Multiset.le_add_left _ _
  have hpassed : (tr.filterMap (passedFlag? t)).Nodup :=
    Multiset.coe_nodup.mp (Multiset.nodup_of_le hle (Multiset.coe_nodup.mpr hnodup))
  refine ⟨hpassed.sublist (flags_sublist tr), fun e he => ?_⟩
  have hmem := (flags_sublist tr).subset (List.mem_map_of_mem he)
  exact Multiset.mem_coe.mp (Multiset.mem_of_le hle (Multiset.mem_coe.mpr hmem))

/-! ## The flags -/

/-- Thread `i` has been told to settle the delivery of the flag `f`, and
has not looked at the flag. -/
def Telling (gs : List Hand) (i : Nat) (f : EnlistmentId) : Prop :=
  ∃ e call, gs[i]? = some (.told e call) ∧ e.flag = f

theorem telling_set {j : Nat} {f : EnlistmentId} (hg : gs[i]? = some g)
    (h : Telling (gs.set i g') j f) :
    (i = j ∧ ∃ e call, g' = .told e call ∧ e.flag = f) ∨ (i ≠ j ∧ Telling gs j f) := by
  obtain ⟨e, call, hj, hflag⟩ := h
  rcases cases_of_getElem?_set hg hj with ⟨rfl, hput⟩ | ⟨hij, hj⟩
  · exact .inl ⟨rfl, e, call, hput.symm, hflag⟩
  · exact .inr ⟨hij, e, call, hj, hflag⟩

/-- A thread that was not told tells nothing new. -/
theorem telling_of_set {j : Nat} {f : EnlistmentId} (hg : gs[i]? = some g)
    (hhand : ∀ e call, g' = .told e call → g = .told e call) (h : Telling (gs.set i g') j f) :
    Telling gs j f := by
  rcases telling_set hg h with ⟨rfl, e, call, hg', hflag⟩ | ⟨-, h⟩
  · exact ⟨e, call, hg.trans (congrArg some (hhand e call hg')), hflag⟩
  · exact h

/-- The flags of the enlistments that were told to settle. -/
def toldFlags (tr : Trace S) : List EnlistmentId :=
  (orders (notices tr)).map fun (enlistment, _) => enlistment.flag

/-- **Which flags may be set**, by the events so far, the shared state and
what the threads have in hand. -/
structure Marks (t : TransactionId) (tr : Trace S) (s : Setting S) (gs : List Hand) : Prop where
  /-- No flag is made twice. -/
  nodup : (made tr).Nodup
  old : ∀ f ∈ made tr, f < s.world.nextFlag
  /-- A flag that is set belongs to an enlistment that was told to settle
  and has looked at it. -/
  settled : ∀ f ∈ made tr, s.world.settled.get f = true →
    f ∈ toldFlags tr ∧ ∀ i, ¬ Telling gs i f
  /-- Who settles has taken the participants. -/
  telling : ∀ i f, Telling gs i f → i ∈ winners t tr ∧ f ∈ toldFlags tr

/-- Before anything has happened, no flag was made. -/
theorem Marks.start (hgs : ∀ g ∈ gs, g = .empty ∨ ∃ channel, g = .ready channel)
    (s : Setting S) : Marks t [] s gs := by
  refine ⟨List.nodup_nil, nofun, nofun, fun i f htelling => ?_⟩
  obtain ⟨e, call, hg, -⟩ := htelling
  rcases hgs _ (List.mem_of_getElem? hg) with h | ⟨channel, h⟩ <;> cases h

theorem toldFlags_concat (tr : Trace S) (e : Event interface (Setting S)) :
    toldFlags (tr ++ [e]) = toldFlags tr ++
      (((notice? e).bind ordered?).map fun (enlistment, _) => enlistment.flag).toList := by
  rw [toldFlags, notices, filterMap_concat, orders, List.filterMap_append, List.map_append]
  cases notice? e with
  | none => rfl
  | some message => cases h : ordered? message <;> simp [h, toldFlags, orders, notices]

theorem toldFlags_subset {f : EnlistmentId} (h : f ∈ toldFlags tr)
    (e : Event interface (Setting S)) : f ∈ toldFlags (tr ++ [e]) := by
  rw [toldFlags_concat]
  exact List.mem_append_left _ h

namespace Marks

theorem telling_concat (h : Marks t tr s gs) {j : Nat} {f : EnlistmentId} (hj : Telling gs j f)
    (e : Event interface (Setting S)) :
    j ∈ winners t (tr ++ [e]) ∧ f ∈ toldFlags (tr ++ [e]) := by
  obtain ⟨hwon, horder⟩ := h.telling j f hj
  exact ⟨winners_subset hwon e, toldFlags_subset horder e⟩

theorem settled_concat (h : Marks t tr s gs) {gs' : List Hand} {f : EnlistmentId}
    (hf : f ∈ made tr) (hset : s.world.settled.get f = true)
    (hless : ∀ j, Telling gs' j f → Telling gs j f) (e : Event interface (Setting S)) :
    f ∈ toldFlags (tr ++ [e]) ∧ ∀ j, ¬ Telling gs' j f := by
  obtain ⟨horder, hnot⟩ := h.settled f hf hset
  exact ⟨toldFlags_subset horder e, fun j hj => hnot j (hless j hj)⟩

/-- Where no flag is made, only the flags that are set and those who are
told are to be looked at. -/
theorem unmade (h : Marks t tr s gs) {gs' : List Hand} {e : Event interface (Setting S)}
    (hmade : made? e = none) (hnext : s'.world.nextFlag = s.world.nextFlag)
    (hsettled : ∀ f ∈ made tr, s'.world.settled.get f = true →
      f ∈ toldFlags (tr ++ [e]) ∧ ∀ j, ¬ Telling gs' j f)
    (htelling : ∀ j f, Telling gs' j f → j ∈ winners t (tr ++ [e]) ∧ f ∈ toldFlags (tr ++ [e])) :
    Marks t (tr ++ [e]) s' gs' := by
  have hsame : made (tr ++ [e]) = made tr := by simp [made, hmade]
  exact ⟨by rw [hsame]; exact h.nodup, by rw [hsame, hnext]; exact h.old,
    by rw [hsame]; exact hsettled, htelling⟩

/-- An event that makes no flag, sets none and tells nobody to settle. -/
theorem keep (h : Marks t tr s gs) (hg : gs[i]? = some g)
    {e : Event interface (Setting S)} (hmade : made? e = none)
    (hsettled : s'.world.settled = s.world.settled) (hnext : s'.world.nextFlag = s.world.nextFlag)
    (hhand : ∀ e call, g' = .told e call → g = .told e call) :
    Marks t (tr ++ [e]) s' (gs.set i g') := by
  refine h.unmade hmade hnext (fun f hf hset => ?_) fun j f hj => ?_
  · rw [hsettled] at hset
    exact h.settled_concat hf hset (fun j => telling_of_set hg hhand) e
  · exact h.telling_concat (telling_of_set hg hhand hj) e

/-- A flag is made. -/
theorem make (h : Marks t tr s gs) (hg : gs[i]? = some g)
    {e : Event interface (Setting S)} (hmade : made? e = some s.world.nextFlag)
    (hsettled : s'.world.settled = s.world.settled.set s.world.nextFlag false)
    (hnext : s'.world.nextFlag = s.world.nextFlag + 1) (hhand : ∀ e call, g' ≠ .told e call) :
    Marks t (tr ++ [e]) s' (gs.set i g') := by
  have hsame : made (tr ++ [e]) = made tr ++ [s.world.nextFlag] := by
    simp [made, hmade]
  have hnew : s.world.nextFlag ∉ made tr := fun hmem => Nat.lt_irrefl _ (h.old _ hmem)
  have htold : ∀ j f, Telling (gs.set i g') j f → Telling gs j f := fun j f =>
    telling_of_set hg fun e call hg' => absurd hg' (hhand e call)
  refine ⟨?_, ?_, ?_, fun j f hj => h.telling_concat (htold j f hj) e⟩
  · rw [hsame]
    exact List.nodup_append.mpr ⟨h.nodup, List.nodup_singleton _, fun f hf f' hf' =>
      fun heq => hnew (List.mem_singleton.mp hf' ▸ heq ▸ hf)⟩
  · rw [hsame, hnext]
    intro f hf
    rcases List.mem_append.mp hf with hf | hf
    · exact Nat.lt_succ_of_lt (h.old f hf)
    · rw [List.mem_singleton.mp hf]
      exact Nat.lt_succ_self _
  · rw [hsame, hsettled]
    intro f hf hset
    by_cases hfresh : f = s.world.nextFlag
    · -- the new flag is not set
      rw [hfresh, Store.get_set_self] at hset
      cases hset
    · rw [Store.get_set_of_ne _ hfresh] at hset
      have hold : f ∈ made tr := (List.mem_append.mp hf).resolve_right fun hmem =>
        hfresh (List.mem_singleton.mp hmem)
      exact h.settled_concat hold hset (fun j => htold j f) e

/-- An enlistment is told to settle, the first time. -/
theorem tell (h : Marks t tr s gs) (hg : gs[i]? = some g)
    {e : Event interface (Setting S)} {enlistment : Enlistment} {call : Channel.Call}
    (hmade : made? e = none) (hnotice : (notice? e).bind ordered? = some (enlistment, call))
    (hwon : i ∈ winners t (tr ++ [e])) (hfirst : enlistment.flag ∉ toldFlags tr)
    (hsettled : s'.world.settled = s.world.settled)
    (hnext : s'.world.nextFlag = s.world.nextFlag) :
    Marks t (tr ++ [e]) s' (gs.set i (.told enlistment call)) := by
  refine h.unmade hmade hnext (fun f hf hset => ?_) fun j f hj => ?_
  · rw [hsettled] at hset
    refine h.settled_concat hf hset (fun j hj => ?_) e
    rcases telling_set hg hj with ⟨-, e', call', hg', hflag⟩ | ⟨-, hj⟩
    · -- its own flag is not among those that were told before
      cases hg'
      exact absurd (hflag ▸ (h.settled f hf hset).1) hfirst
    · exact hj
  · rcases telling_set hg hj with ⟨rfl, e', call', hg', hflag⟩ | ⟨-, hj⟩
    · cases hg'
      refine ⟨hwon, ?_⟩
      rw [toldFlags_concat, hnotice]
      simp [hflag]
    · exact h.telling_concat hj e

/-- An enlistment that was told looks at its flag and sets it. -/
theorem settle (h : Marks t tr s gs) {enlistment : Enlistment} {call : Channel.Call}
    (hg : gs[i]? = some (.told enlistment call)) {e : Event interface (Setting S)}
    (hmade : made? e = none) (hone : ∀ j ∈ winners t tr, i = j)
    (hsettled : s'.world.settled = s.world.settled.set enlistment.flag true)
    (hnext : s'.world.nextFlag = s.world.nextFlag) (hhand : ∀ e call, g' ≠ .told e call) :
    Marks t (tr ++ [e]) s' (gs.set i g') := by
  have horder := (h.telling i enlistment.flag ⟨enlistment, call, hg, rfl⟩).2
  -- nobody else has taken the participants, so nobody else is telling
  have hnobody : ∀ j f, ¬ Telling (gs.set i g') j f := by
    intro j f hj
    rcases telling_set hg hj with ⟨-, e, call, hg', -⟩ | ⟨hne, hj⟩
    · exact hhand e call hg'
    · exact hne (hone j (h.telling j f hj).1)
  refine h.unmade hmade hnext (fun f hf hset => ?_) fun j f hj => absurd hj (hnobody j f)
  refine ⟨toldFlags_subset ?_ e, fun j => hnobody j f⟩
  by_cases hflag : f = enlistment.flag
  · exact hflag ▸ horder
  · rw [hsettled, Store.get_set_of_ne _ hflag] at hset
    exact (h.settled f hf hset).1

end Marks

/-- Whose enlistment is told to settle is enlisted, and told once. -/
theorem toldFlags_sublist (h : Underway (enlisted t tr) (notices tr)) :
    (toldFlags tr).Sublist ((enlistments t tr).map Enlistment.flag) := by
  have hfirst : toldFlags tr = ((orders (notices tr)).map Prod.fst).map Enlistment.flag := by
    rw [List.map_map]
    rfl
  rw [hfirst, enlistments_eq]
  exact (orders_sublist h).map _

/-- **An enlistment that is told to settle finds its flag not set.** -/
theorem Marks.fresh (h : Marks t tr s gs) (hbooks : Books t channels tr gs)
    (hunderway : Underway (enlisted t tr) (notices tr)) {enlistment : Enlistment}
    {call : Channel.Call} (hg : gs[i]? = some (.told enlistment call)) :
    s.world.settled.get enlistment.flag = false := by
  have htelling : Telling gs i enlistment.flag := ⟨enlistment, call, hg, rfl⟩
  have htold := (toldFlags_sublist hunderway).subset (h.telling _ _ htelling).2
  obtain ⟨e, he, hflag⟩ := List.mem_map.mp htold
  have hmade := (enlistments_flags hbooks h.nodup).2 e he
  rw [hflag] at hmade
  rw [Bool.eq_false_iff]
  exact fun hset => (h.settled _ hmade hset).2 i htelling

/-- An enlistment is not told to settle a second time. -/
theorem Marks.first (h : Marks t tr s gs) (hbooks : Books t channels tr gs)
    {e : Event interface (Setting S)} {enlistment : Enlistment} {call : Channel.Call}
    (henlisted : enlisted? t e = none)
    (hnotice : (notice? e).bind ordered? = some (enlistment, call))
    (hunderway : Underway (enlisted t (tr ++ [e])) (notices (tr ++ [e]))) :
    enlistment.flag ∉ toldFlags tr := by
  have hsame : enlistments t (tr ++ [e]) = enlistments t tr := by
    simp [enlistments, accepted?_eq, henlisted]
  have hsublist := toldFlags_sublist hunderway
  rw [hsame, toldFlags_concat, hnotice] at hsublist
  have hnodup := (enlistments_flags hbooks h.nodup).1.sublist hsublist
  exact fun hmem => (List.nodup_append.mp hnodup).2.2 _ hmem _ List.mem_cons_self rfl

/-! ## Every run -/

/-- What bystanders ask, and participants that know nothing of
deliveries: plain requests that do not belong to a completion of `t`. -/
def Idle (t : TransactionId) (r : Request) : Prop := r.Plain ∧ r.Spares t

/-- Surroundings in which the participants other than enlistments use the
transaction `t` as they like and keep away from deliveries. -/
structure Audience (t : TransactionId) extends Surroundings where
  uses : ∀ turn id notice, Uses t (Idle t) (react turn id notice)

instance : Inhabited (Audience t) :=
  ⟨{ (default : Surroundings) with uses := fun _ _ _ => .done _ }⟩

/-- They are company to the transaction. -/
def Audience.company (A : Audience t) : Company t where
  toSurroundings := A.toSurroundings
  uses turn id notice := (A.uses turn id notice).mono fun _ hr => hr.2

variable {A : Audience t}

/-- Flags are made and set by two sections only. -/
theorem serve_flags {r : Request} (hflag : r ≠ .under .newFlag)
    (hsettle : ∀ f, r ≠ .under (.settle f)) (visit : Visit) (s : Setting S) :
    (Server.serve (I := interface) visit s r).state.world.settled = s.world.settled ∧
      (Server.serve (I := interface) visit s r).state.world.nextFlag = s.world.nextFlag := by
  match r with
  | .under (.queue id call) =>
    simp only [Server.serve, World.serve, Queue.Pass.served]
    split <;> exact ⟨rfl, rfl⟩
  | .under .newFlag => exact absurd rfl hflag
  | .under (.settle f) => exact absurd rfl (hsettle f)
  | .under (.lifecycle _ _) | .under (.transaction _ _) | .outside _ => exact ⟨rfl, rfl⟩
  | .notify (.delivery _) _ | .notify (.other _) _ => exact ⟨rfl, rfl⟩

end MessageIntake.Settlement
