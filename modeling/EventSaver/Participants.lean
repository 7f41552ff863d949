import EventSaver.Library.LastValue
import EventSaver.Domain.Extractors

/-!
# The participants of a payload

The extractor keeps, for each role, the id of the last entry that has the role and an id. The
reference below says so of the list alone, and everything else in the list is shown not to matter.
-/

namespace EventSaver
open JsonData EffectProgram ListData

namespace ParticipantExtractor

variable (ext : Externals)

/-- The entries the extractor reads. -/
def participantsOf (payload : Json) : List Json :=
  match payload.get? "normalized" with
  | some (.obj normalized) =>
    match normalized.lookup "participants" with
    | some (.arr participants) => participants
    | _ => []
  | _ => []

/-- An entry that gives an id to a role. -/
def Gives (p : Json) (role : RecipientRole) (u : Uuid) : Prop :=
  ∃ fields text, p = .obj fields ∧ fields.lookup "role" = some (.str role.value) ∧
    fields.lookup "user_id" = some (.str text) ∧ ext.uuid text = some u

/-- The reference: the id that the last entry to give one gives to a role. -/
def IsLastGiven (participants : List Json) (role : RecipientRole) : Option Uuid → Prop
  | some u => ∃ front p back, participants = front ++ p :: back ∧ Gives ext p role u ∧
      ∀ q ∈ back, ∀ v, ¬Gives ext q role v
  | none => ∀ p ∈ participants, ∀ u, ¬Gives ext p role u

/-- An entry that is not an object, has neither role, or has no usable id. -/
inductive Junk : Json → Prop
  | notObject {p : Json} (h : p.isObj = false) : Junk p
  | otherRole {fields : List (String × Json)}
      (h : ∀ role : RecipientRole, fields.lookup "role" ≠ some (.str role.value)) :
      Junk (.obj fields)
  | unparseable {fields : List (String × Json)}
      (h : ∀ text, fields.lookup "user_id" = some (.str text) → ext.uuid text = none) :
      Junk (.obj fields)

/-- An entry with a given role. -/
def HasRole (role : RecipientRole) (p : Json) : Prop := p.get? "role" = some (.str role.value)

/-- The id an entry gives to a role. -/
def userIdAs (role : RecipientRole) (p : Json) : Option Uuid :=
  if roleOf p = some role then parseUuid ext ((p.get? "user_id").getD .null) else none

variable {ext}

lemma roleOf_eq_some {p : Json} {role : RecipientRole} :
    roleOf p = some role ↔ p.get? "role" = some (.str role.value) := by
  unfold roleOf
  split
  · rename_i s hs
    rw [hs, Option.some.injEq, Json.str.injEq]
    by_cases horg : s = RecipientRole.organizer.value
    · rw [if_pos horg, horg]
      cases role <;> decide
    · rw [if_neg horg]
      by_cases hclient : s = RecipientRole.client.value
      · rw [if_pos hclient, hclient]
        cases role <;> decide
      · rw [if_neg hclient]
        cases role <;> simp [horg, hclient]
  · rename_i hs
    constructor
    · intro h
      cases h
    · intro h
      exact absurd h (hs role.value)

lemma parseUuid_eq_some {j : Json} {u : Uuid} :
    parseUuid ext j = some u ↔ ∃ text, j = .str text ∧ ext.uuid text = some u := by
  cases j <;> simp [parseUuid]

lemma userIdAs_eq_some {role : RecipientRole} {p : Json} {u : Uuid} :
    userIdAs ext role p = some u ↔ Gives ext p role u := by
  have hentry : userIdAs ext role p = some u ↔
      p.get? "role" = some (.str role.value) ∧
        parseUuid ext ((p.get? "user_id").getD .null) = some u := by
    rw [userIdAs, ← roleOf_eq_some]
    by_cases hrole : roleOf p = some role <;> simp [hrole]
  rw [hentry]
  constructor
  · rintro ⟨hrole, hid⟩
    obtain ⟨text, htext, hu⟩ := parseUuid_eq_some.mp hid
    rw [Json.getD_null_eq_str] at htext
    match p with
    | .obj fields => exact ⟨fields, text, rfl, hrole, htext, hu⟩
  · rintro ⟨fields, text, rfl, hrole, htext, hu⟩
    have hget : (Json.obj fields).get? "user_id" = some (.str text) := htext
    refine ⟨hrole, ?_⟩
    rw [hget]
    exact hu

lemma userIdAs_eq_none {role : RecipientRole} {p : Json} :
    userIdAs ext role p = none ↔ ∀ u, ¬Gives ext p role u := by
  rw [Option.eq_none_iff_forall_ne_some]
  exact forall_congr' fun u => not_congr userIdAs_eq_some

/-- What the reference asks for is the last value of the list. -/
lemma isLastGiven_iff {participants : List Json} {role : RecipientRole} {answer : Option Uuid} :
    IsLastGiven ext participants role answer ↔
      lastValue (userIdAs ext role) participants = answer := by
  cases answer with
  | none =>
    rw [lastValue_eq_none]
    exact forall₂_congr fun p _ => userIdAs_eq_none.symm
  | some u =>
    rw [lastValue_eq_some]
    have hback (back : List Json) : (∀ q ∈ back, userIdAs ext role q = none) ↔
        ∀ q ∈ back, ∀ v, ¬Gives ext q role v := forall₂_congr fun q _ => userIdAs_eq_none
    simp only [userIdAs_eq_some, hback]
    rfl

variable (ext) in
lemma step_organizer (found : Option Uuid × Option Uuid) (p : Json) :
    (step ext found p).1 = (userIdAs ext .organizer p).or found.1 := by
  rw [step, userIdAs]
  rcases roleOf p with _ | _ | _ <;>
    cases parseUuid ext ((p.get? "user_id").getD .null) <;> rfl

variable (ext) in
lemma step_client (found : Option Uuid × Option Uuid) (p : Json) :
    (step ext found p).2 = (userIdAs ext .client p).or found.2 := by
  rw [step, userIdAs]
  rcases roleOf p with _ | _ | _ <;>
    cases parseUuid ext ((p.get? "user_id").getD .null) <;> rfl

/-- The loop over the participants, one role at a time. -/
lemma foldl_step (participants : List Json) :
    participants.foldl (step ext) (none, none) =
      (lastValue (userIdAs ext .organizer) participants,
        lastValue (userIdAs ext .client) participants) := by
  have horganizer := foldl_lastValue Prod.fst (step_organizer ext) participants (none, none)
  have hclient := foldl_lastValue Prod.snd (step_client ext) participants (none, none)
  rw [Option.or_none] at horganizer hclient
  exact Prod.ext horganizer hclient

lemma extract_eq (fields : List (String × Json)) :
    extract ext (.obj fields) =
      .ok (lastValue (userIdAs ext .organizer) (participantsOf (.obj fields)),
        lastValue (userIdAs ext .client) (participantsOf (.obj fields))) := by
  have hget : Payload.get (.obj fields) "normalized" =
      .ok (((Json.obj fields).get? "normalized").getD .null) := rfl
  rw [← foldl_step, extract, hget, ok_bind, participantsOf]
  rcases (Json.obj fields).get? "normalized" with _ | (_ | _ | _ | _ | _ | normalized)
  case some.obj =>
    have hlist : (Json.obj normalized).get? "participants" = normalized.lookup "participants" := rfl
    dsimp only [Option.getD_some]
    rw [hlist]
    rcases normalized.lookup "participants" with _ | (_ | _ | _ | _ | _ | _) <;> rfl
  all_goals rfl

/-- What the extractor finds is what the reference asks for. -/
lemma isLastGiven_of_extract {payload : Json} {organizer client : Option Uuid}
    (h : extract ext payload = .ok (organizer, client)) :
    IsLastGiven ext (participantsOf payload) .organizer organizer ∧
      IsLastGiven ext (participantsOf payload) .client client := by
  obtain ⟨_, hget, _⟩ := bind_eq_ok.mp h
  obtain ⟨hobj, _⟩ := Payload.get_eq_ok.mp hget
  match payload, hobj with
  | .obj fields, _ =>
    obtain ⟨rfl, rfl⟩ := Prod.mk.inj (Except.ok.inj ((extract_eq fields).symm.trans h))
    exact ⟨isLastGiven_iff.mpr rfl, isLastGiven_iff.mpr rfl⟩

lemma Junk.gives_nothing {p : Json} (h : Junk ext p) (role : RecipientRole) :
    userIdAs ext role p = none := by
  rw [userIdAs_eq_none]
  rintro u ⟨fields, text, rfl, hrole, htext, hu⟩
  cases h with
  | notObject h => cases h
  | otherRole h => exact h role hrole
  | unparseable h =>
    rw [h text htext] at hu
    cases hu

lemma HasRole.gives_nothing {p : Json} {role role' : RecipientRole} (h : HasRole role p)
    (hne : role ≠ role') : userIdAs ext role' p = none := by
  rw [userIdAs, if_neg]
  intro hrole
  rw [roleOf_eq_some.mpr h] at hrole
  exact hne (Option.some.inj hrole)

/-- At most one value each, said of the values and said of the entries. -/
lemma length_filterMap_le_one {role : RecipientRole} {participants : List Json}
    (h : participants.Pairwise fun p q => ∀ u v, Gives ext p role u → ¬Gives ext q role v) :
    (participants.filterMap (userIdAs ext role)).length ≤ 1 := by
  have hvalues : (participants.filterMap (userIdAs ext role)).Pairwise fun _ _ => False := by
    rw [List.pairwise_filterMap]
    exact h.imp fun hpq u hu v hv =>
      hpq u v (userIdAs_eq_some.mp hu) (userIdAs_eq_some.mp hv)
  match hlist : participants.filterMap (userIdAs ext role) with
  | [] => exact Nat.zero_le 1
  | [_] => exact le_refl 1
  | u :: v :: rest =>
    rw [hlist] at hvalues
    exact absurd (List.rel_of_pairwise_cons hvalues (List.mem_cons_self)) id

/-- The extractor never raises and gives each role the id of the last entry that gives it one.
Entries that are junk change nothing wherever they are put in or taken out, entries of one role
change nothing for the other, and with at most one id for each role the order is irrelevant. -/
theorem extract_is_last_given (ext : Externals) (fields : List (String × Json)) :
    ∃ organizer client, extract ext (.obj fields) = .ok (organizer, client) ∧
      IsLastGiven ext (participantsOf (.obj fields)) .organizer organizer ∧
      IsLastGiven ext (participantsOf (.obj fields)) .client client ∧
      (∀ fields', SameUpTo (Junk ext) (participantsOf (.obj fields))
          (participantsOf (.obj fields')) →
        extract ext (.obj fields') = .ok (organizer, client)) ∧
      (∀ fields' organizer' client', extract ext (.obj fields') = .ok (organizer', client') →
        (SameUpTo (HasRole .client) (participantsOf (.obj fields))
          (participantsOf (.obj fields')) → organizer' = organizer) ∧
        (SameUpTo (HasRole .organizer) (participantsOf (.obj fields))
          (participantsOf (.obj fields')) → client' = client)) ∧
      ((∀ role, (participantsOf (.obj fields)).Pairwise fun p q =>
          ∀ u v, Gives ext p role u → ¬Gives ext q role v) →
        ∀ fields', (participantsOf (.obj fields)).Perm (participantsOf (.obj fields')) →
          extract ext (.obj fields') = .ok (organizer, client)) := by
  refine ⟨_, _, extract_eq fields, isLastGiven_iff.mpr rfl, isLastGiven_iff.mpr rfl, ?_, ?_, ?_⟩
  · intro fields' hsame
    rw [extract_eq, hsame.lastValue_eq fun p hp => hp.gives_nothing .organizer,
      hsame.lastValue_eq fun p hp => hp.gives_nothing .client]
  · intro fields' organizer' client' hextract
    rw [extract_eq, Except.ok.injEq, Prod.mk.injEq] at hextract
    obtain ⟨rfl, rfl⟩ := hextract
    constructor
    · intro hsame
      exact (hsame.lastValue_eq fun p hp => hp.gives_nothing (by decide)).symm
    · intro hsame
      exact (hsame.lastValue_eq fun p hp => hp.gives_nothing (by decide)).symm
  · intro hone fields' hperm
    rw [extract_eq, lastValue_perm hperm (length_filterMap_le_one (hone .organizer)),
      lastValue_perm hperm (length_filterMap_le_one (hone .client))]

end ParticipantExtractor

end EventSaver
