import MessageIntake.Delivery.Properties
import MessageIntake.Proofs.Json.Record
import Mathlib.Data.List.Induction
import Mathlib.Data.List.Perm.Basic

/-!
# Properties survive their JSON form

Properties are written as an object of thirteen members and read back
from it, whatever is present and whatever the headers are. They are read
back as well from what says the same: other members beside, fields that
are null or empty headers left out, the values as an array in the order
of the fields, cut where nothing follows (`Survives`, `survives_json`).
Headers are the one field whose own form can be written in many ways, for
a map has no order: any order of their members is read as the same map
(`Headers.ofList_of_perm`).
-/

namespace MessageIntake

namespace Headers

variable {entries : List (String × String)} {key value : String}

/-- A key that is not there yet is added. -/
theorem perm_insertEntry (h : key ∉ entries.map Prod.fst) :
    (insertEntry key value entries).Perm ((key, value) :: entries) := by
  induction entries with
  | nil => exact .refl _
  | cons head rest ih =>
    obtain ⟨k, v⟩ := head
    rw [List.map_cons, List.mem_cons, not_or] at h
    simp only [insertEntry, h.1, if_false]
    split
    · exact .refl _
    · exact ((ih h.2).cons _).trans (.swap _ _ _)

/-- A map of distinct keys has the entries it is made of. -/
theorem perm_ofList (h : Distinct entries) : (ofList entries).entries.Perm entries := by
  induction entries using List.reverseRecOn with
  | nil => exact .refl _
  | append_singleton earlier last ih =>
    have hsplit := h
    rw [Distinct, List.map_append, List.nodup_append] at hsplit
    obtain ⟨hearlier, -, hlast⟩ := hsplit
    have hperm : (ofList earlier).entries.Perm earlier := ih hearlier
    have hnew : last.1 ∉ (ofList earlier).entries.map Prod.fst := by
      rw [(hperm.map Prod.fst).mem_iff]
      exact fun hmem => hlast _ hmem _ (by simp) rfl
    have hstep : (ofList (earlier ++ [last])).entries =
        insertEntry last.1 last.2 (ofList earlier).entries := by
      simp [ofList, insert]
    rw [hstep]
    exact (perm_insertEntry hnew).trans ((hperm.cons _).trans (List.perm_append_singleton _ _).symm)

theorem distinct (headers : Headers) : Distinct headers.entries := by
  rw [Distinct, List.Nodup, List.pairwise_map]
  exact headers.ascending.imp fun h => String.ne_of_lt h

theorem eq_of_entries {a b : Headers} (h : a.entries = b.entries) : a = b := by
  cases a
  cases b
  cases h
  rfl

/-- **A map is made of its entries in whatever order.** -/
theorem ofList_of_perm {headers : Headers} (h : entries.Perm headers.entries) :
    ofList entries = headers := by
  have hdistinct : Distinct entries := (h.map Prod.fst).nodup_iff.mpr headers.distinct
  exact eq_of_entries <| ((perm_ofList hdistinct).trans h).eq_of_pairwise
    (fun _ _ _ _ hab hba => absurd hba (String.lt_asymm hab))
    (ofList entries).ascending headers.ascending

end Headers

namespace Properties

open Json

/-- The members of the JSON form. -/
def members (p : Properties) : List (String × Json) := fieldNames.zip p.fieldValues

theorem nodup_fieldNames : fieldNames.Nodup := by decide

/-! ## Reading a field -/

theorem numberJson_ne_obj {α : Type} (toNat : α → Nat) (n : Option α)
    (ms : List (String × Json)) : numberJson toNat n ≠ .obj ms := by
  cases n <;> exact Json.noConfusion

theorem nullable_word8 (n : Option UInt8) :
    Json.nullable word8? (some (numberJson UInt8.toNat n)) = some n := by
  cases n with
  | none => rfl
  | some n => simp [Json.nullable, numberJson, word8?, Json.nat?, n.toNat_lt_size]

theorem nullable_word64 (n : Option UInt64) :
    Json.nullable word64? (some (numberJson UInt64.toNat n)) = some n := by
  cases n with
  | none => rfl
  | some n => simp [Json.nullable, numberJson, word64?, Json.nat?, n.toNat_lt_size]

/-- The members that stand for headers. -/
def headerMembers (entries : List (String × String)) : List (String × Json) :=
  entries.map fun entry => (entry.1, .str entry.2)

theorem headersJson_eq (headers : Headers) :
    headersJson headers = .obj (headerMembers headers.entries) := rfl

/-- The header that a member stands for, if it is text. -/
def header?OfMember (member : String × Json) : Option (String × String) :=
  member.2.text?.map fun text => (member.1, text)

theorem headers?_headerMembers (entries : List (String × String)) :
    headers? (.obj (headerMembers entries)) = some (.ofList entries) := by
  have hall : (headerMembers entries).mapM header?OfMember = some entries := by
    induction entries with
    | nil => rfl
    | cons head rest ih =>
      rw [headerMembers, List.map_cons, List.mapM_cons, ← headerMembers, ih]
      rfl
  have hread : headers? (.obj (headerMembers entries)) =
      ((headerMembers entries).mapM header?OfMember).bind fun entries => some (.ofList entries) := rfl
  rw [hread, hall]
  rfl

/-- Headers are read from their members in whatever order. -/
theorem headers?_of_reorders {j : Json} {headers : Headers}
    (h : j.Reorders (headersJson headers)) : headers? j = some headers := by
  rw [headersJson_eq] at h
  cases h with
  | same => rw [headers?_headerMembers, Headers.ofList_of_perm (.refl _)]
  | members hperm =>
    obtain ⟨entries, rfl, hentries⟩ := (congrFun₂ (List.eq_map_comp_perm _) _ _).mpr hperm
    have hread := headers?_headerMembers entries
    rw [Headers.ofList_of_perm hentries] at hread
    exact hread

/-! ## Reading the record -/

variable {p : Properties} {given : String → Option Json}

theorem text_restated {name : String} {value : Option String}
    (h : Restates (fun m => m.2.Blank) p.members given)
    (hmem : (name, Json.ofText? value) ∈ p.members) :
    Json.nullable text? (given name) = some value :=
  h.nullable hmem (ofText?_ne_obj value)
    (fun hblank => hblank.resolve_right (ofText?_ne_obj value [])) (nullable_ofText? value)

theorem headers_restated (h : Restates (fun m => m.2.Blank) p.members given) :
    Json.orElse .empty headers? (given "headers") = some p.headers := by
  rcases h ("headers", headersJson p.headers) (List.mem_of_getElem? (i := 2) rfl) with
    ⟨j, hgiven, hj⟩ | ⟨hgiven, hblank⟩
  · rw [hgiven]
    exact headers?_of_reorders hj
  · have hnone : headersJson p.headers = .obj [] := hblank.resolve_left Json.noConfusion
    have hempty : Json.orElse .empty headers? none = headers? (headersJson p.headers) := by
      rw [hnone]
      rfl
    rw [hgiven, hempty]
    exact headers?_of_reorders (.same _)

theorem ofJson?_of_restates {j : Json} (hfields : j.fields? fieldNames = some given)
    (h : Restates (fun m => m.2.Blank) p.members given) : ofJson? j = some p := by
  have text {name : String} {value : Option String} {i : Nat}
      (hmem : p.members[i]? = some (name, Json.ofText? value)) :
      Json.nullable text? (given name) = some value :=
    text_restated h (List.mem_of_getElem? hmem)
  have number {α : Type} {toNat : α → Nat} {read : Json → Option α} {name : String}
      {value : Option α} {i : Nat} (hmem : p.members[i]? = some (name, numberJson toNat value))
      (hread : Json.nullable read (some (numberJson toNat value)) = some value) :
      Json.nullable read (given name) = some value :=
    h.nullable (List.mem_of_getElem? hmem) (numberJson_ne_obj toNat value)
      (fun hblank => hblank.resolve_right (numberJson_ne_obj toNat value [])) hread
  have hcontentType : Json.nullable text? (given "contentType") = some p.contentType :=
    text (i := 0) rfl
  have hcontentEncoding : Json.nullable text? (given "contentEncoding") = some p.contentEncoding :=
    text (i := 1) rfl
  have hheaders := headers_restated h
  have hdeliveryMode : Json.nullable word8? (given "deliveryMode") = some p.deliveryMode :=
    number (i := 3) rfl (nullable_word8 _)
  have hpriority : Json.nullable word8? (given "priority") = some p.priority :=
    number (i := 4) rfl (nullable_word8 _)
  have hcorrelationId : Json.nullable text? (given "correlationId") = some p.correlationId :=
    text (i := 5) rfl
  have hreplyTo : Json.nullable text? (given "replyTo") = some p.replyTo := text (i := 6) rfl
  have hexpiration : Json.nullable text? (given "expiration") = some p.expiration :=
    text (i := 7) rfl
  have hmessageId : Json.nullable text? (given "messageId") = some p.messageId := text (i := 8) rfl
  have htimestamp : Json.nullable word64? (given "timestamp") = some p.timestamp :=
    number (i := 9) rfl (nullable_word64 _)
  have hkind : Json.nullable text? (given "type") = some p.kind := text (i := 10) rfl
  have huserId : Json.nullable text? (given "userId") = some p.userId := text (i := 11) rfl
  have happId : Json.nullable text? (given "appId") = some p.appId := text (i := 12) rfl
  rw [ofJson?, hfields, Option.bind_eq_bind, Option.bind_some, hcontentType, hcontentEncoding,
    hheaders, hdeliveryMode, hpriority, hcorrelationId, hreplyTo, hexpiration, hmessageId,
    htimestamp, hkind, huserId, happId]
  rfl

/-- **Properties survive their JSON form.** Fields whose value says nothing
may lack in what is read: they are null, or headers without a header. -/
structure Survives (p : Properties) : Prop where
  /-- The form has thirteen members, each under its own name. -/
  form : p.toJson = .obj
    [("contentType", .ofText? p.contentType), ("contentEncoding", .ofText? p.contentEncoding),
      ("headers", .obj (headerMembers p.headers.entries)),
      ("deliveryMode", numberJson UInt8.toNat p.deliveryMode),
      ("priority", numberJson UInt8.toNat p.priority),
      ("correlationId", .ofText? p.correlationId), ("replyTo", .ofText? p.replyTo),
      ("expiration", .ofText? p.expiration), ("messageId", .ofText? p.messageId),
      ("timestamp", numberJson UInt64.toNat p.timestamp), ("type", .ofText? p.kind),
      ("userId", .ofText? p.userId), ("appId", .ofText? p.appId)]
  /-- What is written is read back. -/
  itself : ofJson? p.toJson = some p
  /-- So is an object that says the same of each field, with the headers in
  whatever order. -/
  object (members : List (String × Json)) :
    Restates (fun m => m.2.Blank) p.members (fun name => members.lookup name) →
      ofJson? (.obj members) = some p
  /-- So is an object of the members that are `kept`, in whatever order and
  with others beside that are no fields. -/
  leftOut (members kept : List (String × Json)) : kept.Sublist p.members →
    (∀ m ∈ p.members, m ∈ kept ∨ m.2.Blank) →
    (members.filter fun m => m.1 ∈ fieldNames).Perm kept → ofJson? (.obj members) = some p
  /-- So is an array that says the same of each field. -/
  array (items : List Json) : items.length ≤ fieldNames.length →
    Restates (fun m => m.2.Blank) p.members (fun name => items[fieldNames.idxOf name]?) →
      ofJson? (.arr items) = some p
  /-- So is the array of the values, cut where nothing follows. -/
  cut (n : Nat) : (∀ value ∈ p.fieldValues.drop n, value.Blank) →
    ofJson? (.arr (p.fieldValues.take n)) = some p

theorem survives_json (p : Properties) : p.Survives := by
  have object (members : List (String × Json))
      (h : Restates (fun m => m.2.Blank) p.members fun name => members.lookup name) :
      ofJson? (.obj members) = some p := ofJson?_of_restates rfl h
  have array (items : List Json) (hlength : items.length ≤ fieldNames.length)
      (h : Restates (fun m => m.2.Blank) p.members fun name => items[fieldNames.idxOf name]?) :
      ofJson? (.arr items) = some p := ofJson?_of_restates (if_pos hlength) h
  have leftOut (members kept : List (String × Json)) (hkept : kept.Sublist p.members)
      (hlacks : ∀ m ∈ p.members, m ∈ kept ∨ m.2.Blank)
      (hmembers : (members.filter fun m => m.1 ∈ fieldNames).Perm kept) :
      ofJson? (.obj members) = some p :=
    object members (.of_members nodup_fieldNames hkept hlacks hmembers)
  refine ⟨rfl, ?_, object, leftOut, array, fun n hdrop => ?_⟩
  · have hall : p.members.filter (fun m => m.1 ∈ fieldNames) = p.members :=
      List.filter_eq_self.mpr fun m hm => decide_eq_true (List.mem_map_of_mem hm)
    exact leftOut p.members p.members (.refl _) (fun m hm => .inl hm) (.of_eq hall)
  · refine array _ (List.length_take_le' _ _) (.of_take nodup_fieldNames fun m hm => ?_)
    rw [List.zip, List.drop_zipWith] at hm
    exact hdrop m.2 (List.of_mem_zip hm).2

end Properties

end MessageIntake
