import Bitchat.IdentityService
import Bitchat.MapFibre

/-!
# Nickname resolution

`resolveIdentity` answers from the index of nicknames, which should tell how many of the
stored identities claim a nickname. The index only grows, and only by saved identities.
-/

namespace Bitchat.IdentityService

open MapFibre StringHelper

def holders (service : IdentityService) (nickname : Bytes) : Finset Bytes :=
  fibre SocialIdentity.claimedNickname service.cache.socialIdentities nickname

def hintFor : ℕ → IdentityHint
  | 0 => .unknown
  | 1 => .likelyKnown
  | _ + 2 => .ambiguous

/-- Every nickname is resolved according to the number of its holders. -/
def ResolvesNicknames (service : IdentityService) : Prop :=
  ∀ peerID nickname, service.resolveIdentity peerID nickname =
    hintFor (service.holders nickname).card

/-- An identity that is made for the fingerprint would be the first or second one of the name
`Unknown`. -/
def MakesUnknown (service : IdentityService) (fingerprint : Bytes) : Prop :=
  service.getSocialIdentity fingerprint = none ∧
    (service.holders (ascii "Unknown")).card ≤ 1

/-- The calls behind which the index is wrong: an identity is saved once more under a
nickname that it alone has, or leaves its nickname to one other holder or none, or is made
by another call without an entry. -/
def Misindexes (service : IdentityService) : IdentityCall → Prop
  | .updateSocialIdentity identity =>
      ∃ old, service.getSocialIdentity identity.fingerprint = some old ∧
        (service.holders old.claimedNickname).card ≤
          if old.claimedNickname = identity.claimedNickname then 1 else 2
  | .setFavorite fingerprint _ => service.MakesUnknown fingerprint
  | .setBlocked fingerprint _ => service.MakesUnknown fingerprint
  | .applyPendingActions peerID fingerprint =>
      (service.pendingActions.lookup peerID).isSome = true ∧ service.MakesUnknown fingerprint
  | _ => False

def indexed (service : IdentityService) (nickname : Bytes) : ℕ :=
  ((service.cache.nicknameIndex.lookup nickname).getD []).length

def NoEmptyEntry (service : IdentityService) : Prop :=
  ∀ nickname, service.cache.nicknameIndex.lookup nickname ≠ some []

structure IndexAgrees (service : IdentityService) : Prop where
  entry : service.NoEmptyEntry
  resolves : service.ResolvesNicknames

variable {service service' : IdentityService} {nickname : Bytes}

theorem hintFor_eq_iff {m n : ℕ} : hintFor m = hintFor n ↔ m = n ∨ 2 ≤ m ∧ 2 ≤ n := by
  match m, n with
  | 0, 0 => simp
  | 0, 1 => simp [hintFor]
  | 0, n + 2 => simp [hintFor]
  | 1, 0 => simp [hintFor]
  | 1, 1 => simp
  | 1, n + 2 => simp [hintFor]
  | m + 2, 0 => simp [hintFor]
  | m + 2, 1 => simp [hintFor]
  | m + 2, n + 2 => simp [hintFor]

theorem resolveIdentity_eq (hentry : service.NoEmptyEntry) (peerID nickname : Bytes) :
    service.resolveIdentity peerID nickname = hintFor (service.indexed nickname) := by
  rw [resolveIdentity, indexed]
  cases hlookup : service.cache.nicknameIndex.lookup nickname with
  | none => rfl
  | some fingerprints =>
      match fingerprints with
      | [] => exact (hentry nickname hlookup).elim
      | [_] => rfl
      | _ :: _ :: _ => rfl

theorem resolvesNicknames_iff (hentry : service.NoEmptyEntry) :
    service.ResolvesNicknames ↔ ∀ nickname,
      service.indexed nickname = (service.holders nickname).card ∨
        2 ≤ service.indexed nickname ∧ 2 ≤ (service.holders nickname).card := by
  simp only [← hintFor_eq_iff]
  constructor
  · intro h nickname
    rw [← resolveIdentity_eq hentry [], h]
  · intro h peerID nickname
    rw [resolveIdentity_eq hentry, h]

theorem lookup_addToIndex (index : AList fun _ : Bytes => List Bytes)
    (nickname fingerprint other : Bytes) :
    (addToIndex index nickname fingerprint).lookup other =
      if other = nickname then some ((index.lookup nickname).getD [] ++ [fingerprint])
      else index.lookup other := by
  rw [addToIndex]
  split_ifs with hother
  · rw [hother, AList.lookup_insert]
  · rw [AList.lookup_insert_ne hother]

theorem indexed_updateSocialIdentity (service : IdentityService) (identity : SocialIdentity)
    (nickname : Bytes) : (service.updateSocialIdentity identity).indexed nickname =
      service.indexed nickname + if identity.claimedNickname = nickname then 1 else 0 := by
  rw [updateSocialIdentity_eq, indexed, indexed]
  dsimp only
  rw [lookup_addToIndex, if_congr eq_comm rfl rfl]
  split_ifs with hnickname
  · rw [Option.getD_some, List.length_append, hnickname, List.length_singleton]
  · rfl

theorem noEmptyEntry_updateSocialIdentity (hentry : service.NoEmptyEntry)
    (identity : SocialIdentity) : (service.updateSocialIdentity identity).NoEmptyEntry := by
  intro nickname
  rw [updateSocialIdentity_eq]
  dsimp only
  rw [lookup_addToIndex]
  split_ifs
  · simp
  · exact hentry nickname

section Saving

variable {identity old : SocialIdentity}

theorem holders_updateSocialIdentity (service : IdentityService) (identity : SocialIdentity)
    (nickname : Bytes) : (service.updateSocialIdentity identity).holders nickname =
      fibre SocialIdentity.claimedNickname
        (service.cache.socialIdentities.insert identity.fingerprint identity) nickname := by
  rw [updateSocialIdentity_eq]
  rfl

/-- What is counted behind the saving: the index has one entry more, and the holders are
those behind the insertion. -/
theorem resolves_update_counts_iff (hentry : service.NoEmptyEntry) (identity : SocialIdentity) :
    (service.updateSocialIdentity identity).ResolvesNicknames ↔ ∀ nickname,
      let entries := service.indexed nickname + if identity.claimedNickname = nickname then 1 else 0
      let owners := (fibre SocialIdentity.claimedNickname
        (service.cache.socialIdentities.insert identity.fingerprint identity) nickname).card
      entries = owners ∨ 2 ≤ entries ∧ 2 ≤ owners := by
  rw [resolvesNicknames_iff (noEmptyEntry_updateSocialIdentity hentry identity)]
  simp only [indexed_updateSocialIdentity, holders_updateSocialIdentity]

theorem resolves_update_of_new (hentry : service.NoEmptyEntry)
    (hresolves : service.ResolvesNicknames)
    (hnew : service.getSocialIdentity identity.fingerprint = none) :
    (service.updateSocialIdentity identity).ResolvesNicknames := by
  rw [resolves_update_counts_iff hentry]
  intro nickname
  have hbefore := (resolvesNicknames_iff hentry).mp hresolves nickname
  rw [card_fibre_insert_of_new hnew]
  rw [holders] at hbefore
  omega

theorem resolves_update_same_iff (hentry : service.NoEmptyEntry)
    (hresolves : service.ResolvesNicknames)
    (hold : service.getSocialIdentity identity.fingerprint = some old)
    (hsame : old.claimedNickname = identity.claimedNickname) :
    (service.updateSocialIdentity identity).ResolvesNicknames ↔
      ¬ (service.holders old.claimedNickname).card ≤ 1 := by
  have hbefore := (resolvesNicknames_iff hentry).mp hresolves
  have hpos : 0 < (service.holders old.claimedNickname).card := card_fibre_pos hold
  simp only [resolves_update_counts_iff hentry, fibre_insert_of_view_eq hold hsame]
  constructor
  · intro h
    have hafter := h old.claimedNickname
    have hown := hbefore old.claimedNickname
    rw [if_pos hsame.symm] at hafter
    rw [holders] at hown hpos ⊢
    omega
  · intro h nickname
    have hown := hbefore nickname
    rw [holders] at hown h
    split_ifs with hnickname
    · rw [hsame, hnickname] at h
      omega
    · exact hown

/-- The entry under the old nickname stays although there is one holder less. -/
theorem resolves_update_moved_iff (hentry : service.NoEmptyEntry)
    (hresolves : service.ResolvesNicknames)
    (hold : service.getSocialIdentity identity.fingerprint = some old)
    (hmoved : old.claimedNickname ≠ identity.claimedNickname) :
    (service.updateSocialIdentity identity).ResolvesNicknames ↔
      ¬ (service.holders old.claimedNickname).card ≤ 2 := by
  have hbefore := (resolvesNicknames_iff hentry).mp hresolves
  have hpos : 0 < (service.holders old.claimedNickname).card := card_fibre_pos hold
  simp only [resolves_update_counts_iff hentry, card_fibre_insert_of_moved hold hmoved]
  constructor
  · intro h
    have hafter := h old.claimedNickname
    have hown := hbefore old.claimedNickname
    rw [if_neg hmoved.symm, if_neg hmoved.symm, if_pos rfl] at hafter
    rw [holders] at hown hpos ⊢
    omega
  · intro h nickname
    have hown := hbefore nickname
    rw [holders] at hown h
    split_ifs with hnickname hleft
    · omega
    · rw [hleft] at h
      omega
    · exact hown

theorem resolves_update_iff (hentry : service.NoEmptyEntry)
    (hresolves : service.ResolvesNicknames) (identity : SocialIdentity) :
    (service.updateSocialIdentity identity).ResolvesNicknames ↔
      ¬ service.Misindexes (.updateSocialIdentity identity) := by
  rw [Misindexes]
  cases hold : service.getSocialIdentity identity.fingerprint with
  | none => exact iff_of_true (resolves_update_of_new hentry hresolves hold) (by simp)
  | some old =>
      simp only [Option.some.injEq, exists_eq_left']
      split_ifs with hsame
      · exact resolves_update_same_iff hentry hresolves hold hsame
      · exact resolves_update_moved_iff hentry hresolves hold hsame

end Saving

/-- Storing an identity under the nickname it has, or under `Unknown` for a new fingerprint,
when the index stays. -/
theorem resolves_store_iff (hentry : service.NoEmptyEntry)
    (hresolves : service.ResolvesNicknames) {fingerprint : Bytes} {identity : SocialIdentity}
    (hindex : service'.cache.nicknameIndex = service.cache.nicknameIndex)
    (hstored : service'.cache.socialIdentities =
      service.cache.socialIdentities.insert fingerprint identity)
    (hname : identity.claimedNickname = (service.socialIdentity fingerprint).claimedNickname) :
    service'.ResolvesNicknames ↔ ¬ service.MakesUnknown fingerprint := by
  have hentry' : service'.NoEmptyEntry := by
    rw [NoEmptyEntry, hindex]
    exact hentry
  have hbefore := (resolvesNicknames_iff hentry).mp hresolves
  rw [resolvesNicknames_iff hentry']
  simp only [indexed, holders, hindex, hstored] at hbefore ⊢
  rw [socialIdentity] at hname
  cases hold : service.getSocialIdentity fingerprint with
  | some old =>
      rw [hold, Option.getD_some] at hname
      refine iff_of_true (fun nickname => ?_) (fun h => by simp [MakesUnknown, hold] at h)
      rw [fibre_insert_of_view_eq hold hname.symm]
      exact hbefore nickname
  | none =>
      rw [hold, Option.getD_none] at hname
      have hunknown : identity.claimedNickname = ascii "Unknown" := hname
      rw [MakesUnknown, and_iff_right hold, holders]
      simp only [card_fibre_insert_of_new hold, hunknown]
      constructor
      · intro h
        have hafter := h (ascii "Unknown")
        have hown := hbefore (ascii "Unknown")
        rw [if_pos rfl] at hafter
        omega
      · intro h nickname
        have hown := hbefore nickname
        split_ifs with hnickname
        · rw [hnickname] at h
          omega
        · exact hown

theorem noEmptyEntry_perform (hentry : service.NoEmptyEntry) (call : IdentityCall) :
    (service.perform call).NoEmptyEntry := by
  cases call with
  | updateSocialIdentity identity => exact noEmptyEntry_updateSocialIdentity hentry identity
  | clearAllIdentityData =>
      intro nickname h
      cases h
  | _ =>
      rw [NoEmptyEntry, service.nicknameIndex_perform (by simp) (by simp)]
      exact hentry

/-- Every call but the saving of an identity keeps the nickname of the identity it stores. -/
theorem claimedNickname_stored {call : IdentityCall}
    (hupdate : ∀ identity, call ≠ .updateSocialIdentity identity) {entry : Bytes × SocialIdentity}
    (hentry : entry ∈ service.stored call) :
    entry.2.claimedNickname = (service.socialIdentity entry.1).claimedNickname := by
  cases call with
  | updateSocialIdentity identity => exact (hupdate identity rfl).elim
  | setFavorite fingerprint isFavorite =>
      cases hentry
      rfl
  | setBlocked fingerprint isBlocked =>
      cases hentry
      rfl
  | applyPendingActions peerID fingerprint =>
      obtain ⟨actions, -, rfl⟩ := Option.mem_map.mp hentry
      rw [PendingActions.apply_eq]
  | setVerified fingerprint verified =>
      obtain ⟨identity, hidentity, rfl⟩ := Option.mem_map.mp hentry
      rw [socialIdentity, hidentity, Option.getD_some]
  | _ => cases hentry

theorem misindexes_iff {call : IdentityCall}
    (hupdate : ∀ identity, call ≠ .updateSocialIdentity identity) :
    service.Misindexes call ↔ ∃ entry ∈ service.stored call, service.MakesUnknown entry.1 := by
  cases call with
  | updateSocialIdentity identity => exact (hupdate identity rfl).elim
  | applyPendingActions peerID fingerprint =>
      cases hactions : service.pendingActions.lookup peerID with
      | none => simp [Misindexes, stored, hactions]
      | some actions => simp [Misindexes, stored, hactions]
  | setVerified fingerprint verified =>
      cases hidentity : service.getSocialIdentity fingerprint with
      | none => simp [Misindexes, stored, hidentity]
      | some identity => simp [Misindexes, stored, hidentity, MakesUnknown]
  | _ => simp [Misindexes, stored]

/-- Behind a call the nicknames are resolved as before, unless the call breaks the index. -/
theorem resolves_perform_iff (hentry : service.NoEmptyEntry)
    (hresolves : service.ResolvesNicknames) (call : IdentityCall) :
    (service.perform call).ResolvesNicknames ↔ ¬ service.Misindexes call := by
  by_cases hclear : call = .clearAllIdentityData
  · subst hclear
    exact iff_of_true (fun _ _ => rfl) id
  by_cases hsaved : ∃ identity, call = .updateSocialIdentity identity
  · obtain ⟨identity, rfl⟩ := hsaved
    exact resolves_update_iff hentry hresolves identity
  have hupdate : ∀ identity, call ≠ .updateSocialIdentity identity :=
    fun identity h => hsaved ⟨identity, h⟩
  have hstored := (service.tables_perform hclear).1
  have hindex := service.nicknameIndex_perform hclear hupdate
  rw [misindexes_iff hupdate]
  cases hcall : service.stored call with
  | none =>
      rw [hcall] at hstored
      refine iff_of_true (fun peerID nickname => ?_) (by simp)
      rw [resolveIdentity, holders, hindex, hstored]
      exact hresolves peerID nickname
  | some entry =>
      rw [hcall] at hstored
      simp only [Option.mem_some_iff, exists_eq_left']
      exact resolves_store_iff hentry hresolves hindex hstored
        (claimedNickname_stored hupdate hcall)

/-- From the empty state on, every nickname is resolved according to the identities that
claim it exactly as long as no call breaks the index. -/
theorem nicknames_resolved_iff (actions : List IdentityCall) :
    calls.AllStates ResolvesNicknames {} actions ↔
      calls.AllSteps (fun service call => ¬ service.Misindexes call) {} actions := by
  have hstart : IndexAgrees {} := by
    refine ⟨fun nickname h => ?_, fun _ _ => rfl⟩
    cases h
  refine TransitionSystem.allStates_iff_allSteps (fun _ => IndexAgrees.resolves) ?_ ?_
    (execution_calls _ actions) hstart
  · intro service call _ h hcall
    exact ⟨noEmptyEntry_perform h.entry call,
      (resolves_perform_iff h.entry h.resolves call).mpr hcall⟩
  · intro service call _ h hcall hresolves
    exact (resolves_perform_iff h.entry h.resolves call).mp hresolves hcall

def alice : SocialIdentity :=
  { newIdentity [1] with claimedNickname := ascii "alice" }

/-- An identity that is saved twice makes its own nickname ambiguous. -/
theorem saved_twice_ambiguous :
    ¬ calls.AllStates ResolvesNicknames {}
      [.updateSocialIdentity alice, .updateSocialIdentity alice] := by
  intro h
  have hend := h.run [] (ascii "alice")
  revert hend
  decide +kernel

end Bitchat.IdentityService
