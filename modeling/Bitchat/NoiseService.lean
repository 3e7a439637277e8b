import Bitchat.Effect
import Bitchat.StringHelper
import Mathlib.Data.List.AList

/-!
# Noise sessions

`NoiseSessionDefault` and the session table of `NoiseService`. The handshake of the source
is a placeholder that exchanges a few key bytes, and its cipher is the identity. The table
is an unordered map: its entries are listed in some order, which an assignment to a known
key keeps, and a new key goes in front.
`now` is a reading of the system clock in nanoseconds.
-/

namespace Bitchat

abbrev NoisePrivateKey := Vector UInt8 32

inductive NoiseRole where
  | initiator
  | responder
  deriving DecidableEq, Repr

structure NoiseSessionDefault where
  peerID : Bytes
  role : NoiseRole
  localStaticKey : NoisePrivateKey
  handshakeHash : Option Bytes := none
  sessionEstablished : Bool := false
  messageCount : UInt64 := 0
  lastActivityTime : ℕ
  creationTime : ℕ
  deriving DecidableEq, Repr

namespace NoiseSessionDefault

def make (peerID : Bytes) (role : NoiseRole) (localStaticKey : NoisePrivateKey) (now : ℕ) :
    NoiseSessionDefault where
  peerID := peerID
  role := role
  localStaticKey := localStaticKey
  lastActivityTime := now
  creationTime := now

/-- The common body of `encrypt` and `decrypt`, which return the text as it is. -/
def crypt (now : ℕ) (text : Bytes) : Effect Fault NoiseSessionDefault Bytes := do
  let session ← get
  if !session.sessionEstablished then
    throw (.runtimeError (ascii "Session not established"))
  else
    modify fun session =>
      { session with messageCount := session.messageCount + 1, lastActivityTime := now }
    pure text

def encrypt (now : ℕ) (plaintext : Bytes) : Effect Fault NoiseSessionDefault Bytes :=
  crypt now plaintext

def decrypt (now : ℕ) (ciphertext : Bytes) : Effect Fault NoiseSessionDefault Bytes :=
  crypt now ciphertext

def isSessionEstablished (session : NoiseSessionDefault) : Bool := session.sessionEstablished

/-- `NOISE_SESSION_TIMEOUT`, 24 hours in nanoseconds. -/
def noiseSessionTimeout : ℕ := 24 * 60 * 60 * 1000000000

/-- Nine tenths of `NOISE_MAX_MESSAGES_PER_SESSION`. -/
def messageThreshold : UInt64 := 900000000

def needsRenegotiation (session : NoiseSessionDefault) (now : ℕ) : Bool :=
  if now - session.creationTime > noiseSessionTimeout then true
  else if session.messageCount ≥ messageThreshold then true
  else false

/-- The common body of `startHandshake` and `processHandshakeMessage`. -/
def completeHandshake (reply : NoisePrivateKey → Bytes) :
    Effect Fault NoiseSessionDefault (Option Bytes) := do
  let session ← get
  if session.sessionEstablished then
    throw (.runtimeError (ascii "Session already established"))
  else
    modify fun session =>
      { session with sessionEstablished := true, handshakeHash := some (List.replicate 32 0) }
    pure (some (reply session.localStaticKey))

def startHandshake : Effect Fault NoiseSessionDefault (Option Bytes) :=
  completeHandshake fun localStaticKey => [0x01, 0x02, 0x03] ++ localStaticKey.toList.take 3

/-- The message itself is not looked at. -/
def processHandshakeMessage (_message : Bytes) : Effect Fault NoiseSessionDefault (Option Bytes) :=
  completeHandshake fun localStaticKey =>
    [0x04, 0x05, 0x06] ++ (localStaticKey.toList.drop 3).take 3

end NoiseSessionDefault

structure NoiseService where
  localStaticKey : NoisePrivateKey
  sessions : AList (fun _ : Bytes => NoiseSessionDefault) := ∅

namespace NoiseService

open Effect

def resolveRole (localPeerID remotePeerID : Bytes) : NoiseRole :=
  if localPeerID < remotePeerID then .initiator else .responder

def getSession (service : NoiseService) (peerID : Bytes) : Option NoiseSessionDefault :=
  service.sessions.lookup peerID

def putSession (peerID : Bytes) (session : NoiseSessionDefault) (service : NoiseService) :
    NoiseService :=
  { service with
    sessions := if peerID ∈ service.sessions then service.sessions.replace peerID session
      else service.sessions.insert peerID session }

def createSession (peerID : Bytes) (role : NoiseRole) (now : ℕ) :
    Effect Fault NoiseService NoiseSessionDefault := do
  let service ← get
  let session := NoiseSessionDefault.make peerID role service.localStaticKey now
  modify (putSession peerID session)
  pure session

def removeSession (service : NoiseService) (peerID : Bytes) : NoiseService :=
  { service with sessions := service.sessions.erase peerID }

/-- An effect on the shared session object, which stays the table's entry for `peerID`. -/
def withSession {α : Type} (peerID : Bytes) (session : NoiseSessionDefault)
    (m : Effect Fault NoiseSessionDefault α) : Effect Fault NoiseService α :=
  Effect.zoom (fun _ => session) (putSession peerID) m

def noSession (peerID : Bytes) : Fault :=
  .runtimeError (ascii "No session found for peer: " ++ peerID)

def initiateHandshake (peerID : Bytes) : Effect Fault NoiseService Bytes := do
  match (← get).getSession peerID with
  | none => throw (noSession peerID)
  | some session =>
      match ← withSession peerID session NoiseSessionDefault.startHandshake with
      | none => throw (.runtimeError (ascii "Failed to start handshake for peer: " ++ peerID))
      | some handshakeMessage => pure handshakeMessage

def handleIncomingHandshake (peerID message localPeerID : Bytes) (now : ℕ) :
    Effect Fault NoiseService (Option Bytes) := do
  let session ← match (← get).getSession peerID with
    | some session => pure session
    | none => createSession peerID (resolveRole localPeerID peerID) now
  withSession peerID session (NoiseSessionDefault.processHandshakeMessage message)

def encrypt (plaintext peerID : Bytes) (now : ℕ) : Effect Fault NoiseService Bytes := do
  match (← get).getSession peerID with
  | none => throw (noSession peerID)
  | some session => withSession peerID session (NoiseSessionDefault.encrypt now plaintext)

def decrypt (ciphertext peerID : Bytes) (now : ℕ) : Effect Fault NoiseService Bytes := do
  match (← get).getSession peerID with
  | none => throw (noSession peerID)
  | some session => withSession peerID session (NoiseSessionDefault.decrypt now ciphertext)

def hasEstablishedSession (service : NoiseService) (peerID : Bytes) : Bool :=
  match service.getSession peerID with
  | none => false
  | some session => session.isSessionEstablished

/-- The newest session comes first; the source takes them in the order of a hash table, which
is not specified. -/
def getEstablishedSessionIDs (service : NoiseService) : List Bytes :=
  (service.sessions.entries.filter fun entry => entry.2.isSessionEstablished).map fun entry =>
    entry.1

/-- Every entry carries the flag `true`. -/
def getSessionsNeedingRekey (service : NoiseService) (now : ℕ) : List (Bytes × Bool) :=
  (service.sessions.entries.filter fun entry =>
    entry.2.isSessionEstablished && entry.2.needsRenegotiation now).map fun entry => (entry.1, true)

def initiateRekey (peerID : Bytes) : Effect Fault NoiseService Unit := do
  match (← get).getSession peerID with
  | none => throw (noSession peerID)
  | some session =>
      if !session.isSessionEstablished then
        throw (.runtimeError (ascii "Session not established for peer: " ++ peerID))
      else
        match ← withSession peerID session NoiseSessionDefault.startHandshake with
        | none =>
            throw (.runtimeError (ascii "Failed to start rekey handshake for peer: " ++ peerID))
        | some _ => pure ()

theorem hasEstablishedSession_iff {service : NoiseService} {peerID : Bytes} :
    service.hasEstablishedSession peerID = true ↔
      ∃ session, service.getSession peerID = some session ∧ session.sessionEstablished = true := by
  unfold hasEstablishedSession
  cases service.getSession peerID with
  | none => simp
  | some session => simp [NoiseSessionDefault.isSessionEstablished]

theorem hasEstablishedSession_of_mem {service : NoiseService} {peerID : Bytes}
    (h : peerID ∈ service.getEstablishedSessionIDs) :
    service.hasEstablishedSession peerID = true := by
  obtain ⟨⟨_, session⟩, hentry, rfl⟩ := List.mem_map.mp h
  obtain ⟨hmem, hestablished⟩ := List.mem_filter.mp hentry
  exact hasEstablishedSession_iff.mpr ⟨session, AList.mem_lookup_iff.mpr hmem, hestablished⟩

theorem outcome_crypt_of_established {session : NoiseSessionDefault}
    (h : session.sessionEstablished = true) (now : ℕ) (text : Bytes) :
    (NoiseSessionDefault.crypt now text).outcome session =
      (.ok text, { session with
        messageCount := session.messageCount + 1, lastActivityTime := now }) := by
  rw [NoiseSessionDefault.crypt, Effect.outcome_bind_ok (Effect.outcome_get session),
    if_neg (by simp [h])]
  rfl

/-- Without a session nothing, else whether the session is established. -/
def status (service : NoiseService) (peerID : Bytes) : Option Bool :=
  (service.getSession peerID).map NoiseSessionDefault.sessionEstablished

theorem hasEstablishedSession_eq (service : NoiseService) (peerID : Bytes) :
    service.hasEstablishedSession peerID = decide (service.status peerID = some true) := by
  rw [Bool.eq_iff_iff, decide_eq_true_iff, hasEstablishedSession_iff, status,
    Option.map_eq_some_iff]

theorem status_eq_some {service : NoiseService} {peerID : Bytes} {established : Bool} :
    service.status peerID = some established ↔
      ∃ session, service.getSession peerID = some session ∧
        session.sessionEstablished = established := Option.map_eq_some_iff

theorem status_eq_none {service : NoiseService} {peerID : Bytes} :
    service.status peerID = none ↔ service.getSession peerID = none := Option.map_eq_none_iff

theorem dlookup_kreplace (key peerID : Bytes) (session : NoiseSessionDefault)
    (entries : List (Sigma fun _ : Bytes => NoiseSessionDefault)) (h : key ∈ entries.keys) :
    (entries.kreplace key session).dlookup peerID =
      if peerID = key then some session else entries.dlookup peerID := by
  induction entries with
  | nil => simp at h
  | cons entry entries ih =>
      obtain ⟨first, old⟩ := entry
      by_cases hfirst : key = first
      · subst hfirst
        have hcons : (⟨key, old⟩ :: entries).kreplace key session = ⟨key, session⟩ :: entries :=
          List.lookmap_cons_some _ _ (if_pos rfl)
        rw [hcons]
        by_cases hpeer : peerID = key
        · subst hpeer
          rw [List.dlookup_cons_eq, if_pos rfl]
        · rw [List.dlookup_cons_ne _ _ hpeer, if_neg hpeer, List.dlookup_cons_ne _ _ hpeer]
      · have hcons : (⟨first, old⟩ :: entries).kreplace key session =
            ⟨first, old⟩ :: entries.kreplace key session :=
          List.lookmap_cons_none _ _ (if_neg hfirst)
        rw [hcons]
        by_cases hpeer : peerID = first
        · subst hpeer
          rw [List.dlookup_cons_eq, if_neg (Ne.symm hfirst), List.dlookup_cons_eq]
        · rw [List.dlookup_cons_ne _ _ hpeer, List.dlookup_cons_ne _ _ hpeer]
          exact ih (by simpa [hfirst] using h)

theorem getSession_putSession (key peerID : Bytes) (session : NoiseSessionDefault)
    (service : NoiseService) :
    (putSession key session service).getSession peerID =
      if peerID = key then some session else service.getSession peerID := by
  unfold getSession putSession
  dsimp only
  split
  · next hmem => exact dlookup_kreplace key peerID session _ hmem
  · by_cases hpeer : peerID = key
    · rw [if_pos hpeer, hpeer, AList.lookup_insert]
    · rw [if_neg hpeer, AList.lookup_insert_ne hpeer]

theorem status_putSession (key : Bytes) (session : NoiseSessionDefault) (service : NoiseService) :
    (putSession key session service).status =
      Function.update service.status key (some session.sessionEstablished) := by
  funext peerID
  rw [status, getSession_putSession, Function.update_apply]
  split_ifs
  · rfl
  · rfl

theorem putSession_self {service : NoiseService} {peerID : Bytes} {session : NoiseSessionDefault}
    (h : service.getSession peerID = some session) :
    putSession peerID session service = service := by
  have hentry := AList.mem_lookup_iff.mp h
  have hmem : peerID ∈ service.sessions := AList.lookup_isSome.mp (Option.isSome_of_mem h)
  have hsame : service.sessions.replace peerID session = service.sessions :=
    AList.ext (List.kreplace_self service.sessions.nodupKeys hentry)
  rw [putSession, if_pos hmem, hsame]

def alreadyEstablished : Fault := .runtimeError (ascii "Session already established")

/-- Both ends of the handshake go through `completeHandshake`, which is for new sessions. -/
theorem outcome_completeHandshake_of_established {session : NoiseSessionDefault}
    (h : session.sessionEstablished = true) (reply : NoisePrivateKey → Bytes) :
    (NoiseSessionDefault.completeHandshake reply).outcome session =
      (.error alreadyEstablished, session) := by
  rw [NoiseSessionDefault.completeHandshake, outcome_bind_ok (outcome_get session), if_pos h]
  rfl

theorem outcome_completeHandshake_of_new {session : NoiseSessionDefault}
    (h : session.sessionEstablished = false) (reply : NoisePrivateKey → Bytes) :
    (NoiseSessionDefault.completeHandshake reply).outcome session =
      (.ok (some (reply session.localStaticKey)), { session with
        sessionEstablished := true, handshakeHash := some (List.replicate 32 0) }) := by
  rw [NoiseSessionDefault.completeHandshake, outcome_bind_ok (outcome_get session),
    if_neg (by simp [h])]
  rfl

theorem length_handshakeReply (bytes : Bytes) (h : bytes.length = 3)
    (localStaticKey : NoisePrivateKey) (k : ℕ) (hk : k ≤ 29) :
    (bytes ++ (localStaticKey.toList.drop k).take 3).length = 6 := by
  rw [List.length_append, List.length_take, List.length_drop, Vector.length_toList, h]
  omega

theorem outcome_processHandshakeMessage {session : NoiseSessionDefault}
    (h : session.sessionEstablished = false) (peerID message : Bytes) (service : NoiseService) :
    ∃ response service', (withSession peerID session
          (NoiseSessionDefault.processHandshakeMessage message)).outcome service =
        (.ok (some response), service') ∧ response.length = 6 ∧
      service'.status = Function.update service.status peerID (some true) := by
  rw [withSession, outcome_zoom, NoiseSessionDefault.processHandshakeMessage,
    outcome_completeHandshake_of_new h]
  exact ⟨_, _, rfl, length_handshakeReply _ rfl _ 3 (by decide), status_putSession _ _ _⟩

/-- An incoming handshake establishes the session for its sender and answers with six bytes. -/
theorem outcome_handleIncomingHandshake {service : NoiseService} {peerID : Bytes}
    (h : service.hasEstablishedSession peerID = false) (message localPeerID : Bytes) (now : ℕ) :
    ∃ response service', (handleIncomingHandshake peerID message localPeerID now).outcome service =
        (.ok (some response), service') ∧ response.length = 6 ∧
      service'.status = Function.update service.status peerID (some true) := by
  rw [handleIncomingHandshake, outcome_bind_ok (outcome_get service)]
  cases hsession : service.getSession peerID with
  | none =>
      have hcreate : (createSession peerID (resolveRole localPeerID peerID) now).outcome service =
          (.ok (NoiseSessionDefault.make peerID (resolveRole localPeerID peerID)
              service.localStaticKey now),
            putSession peerID (NoiseSessionDefault.make peerID (resolveRole localPeerID peerID)
              service.localStaticKey now) service) := rfl
      dsimp only
      rw [outcome_bind_ok hcreate]
      have hnew : (NoiseSessionDefault.make peerID (resolveRole localPeerID peerID)
          service.localStaticKey now).sessionEstablished = false := rfl
      obtain ⟨response, service', hout, hlen, hstatus⟩ :=
        outcome_processHandshakeMessage hnew peerID message _
      rw [status_putSession, Function.update_idem] at hstatus
      exact ⟨response, service', hout, hlen, hstatus⟩
  | some session =>
      have hnew : session.sessionEstablished = false := by
        rw [hasEstablishedSession, hsession] at h
        exact h
      exact outcome_processHandshakeMessage hnew peerID message service

theorem outcome_initiateHandshake_of_pending {service : NoiseService} {peerID : Bytes}
    (h : service.status peerID = some false) :
    ∃ response service', (initiateHandshake peerID).outcome service = (.ok response, service') ∧
      response.length = 6 ∧
      service'.status = Function.update service.status peerID (some true) := by
  obtain ⟨session, hsession, hnew⟩ := status_eq_some.mp h
  have hstart : (withSession peerID session NoiseSessionDefault.startHandshake).outcome service =
      (.ok (some ([0x01, 0x02, 0x03] ++ session.localStaticKey.toList.take 3)),
        putSession peerID { session with
          sessionEstablished := true, handshakeHash := some (List.replicate 32 0) } service) := by
    rw [withSession, outcome_zoom, NoiseSessionDefault.startHandshake,
      outcome_completeHandshake_of_new hnew]
  rw [initiateHandshake, outcome_bind_ok (outcome_get service), hsession]
  dsimp only
  rw [outcome_bind_ok hstart]
  exact ⟨_, _, rfl, length_handshakeReply _ rfl _ 0 (by decide), status_putSession _ _ _⟩

theorem outcome_initiateHandshake_error {service : NoiseService} {peerID : Bytes}
    (h : service.status peerID ≠ some false) :
    ∃ what, (initiateHandshake peerID).outcome service =
      (.error (.runtimeError what), service) := by
  rw [initiateHandshake, outcome_bind_ok (outcome_get service)]
  cases hsession : service.getSession peerID with
  | none => exact ⟨_, rfl⟩
  | some session =>
      have hestablished : session.sessionEstablished = true := by
        rw [Ne, status_eq_some] at h
        exact Bool.eq_true_of_not_eq_false fun hf => h ⟨session, hsession, hf⟩
      have hstart : (withSession peerID session NoiseSessionDefault.startHandshake).outcome
          service = (.error alreadyEstablished, service) := by
        rw [withSession, outcome_zoom, NoiseSessionDefault.startHandshake,
          outcome_completeHandshake_of_established hestablished, putSession_self hsession]
      dsimp only
      rw [outcome_bind_error hstart]
      exact ⟨_, rfl⟩

theorem outcome_encrypt_of_established {service : NoiseService} {peerID : Bytes}
    (h : service.hasEstablishedSession peerID = true) (text : Bytes) (now : ℕ) :
    ∃ service', (encrypt text peerID now).outcome service = (.ok text, service') ∧
      service'.status = service.status := by
  obtain ⟨session, hsession, hestablished⟩ := hasEstablishedSession_iff.mp h
  rw [encrypt, outcome_bind_ok (outcome_get service), hsession]
  dsimp only
  rw [withSession, outcome_zoom, NoiseSessionDefault.encrypt,
    outcome_crypt_of_established hestablished]
  refine ⟨_, rfl, ?_⟩
  rw [status_putSession]
  exact Function.update_eq_self_iff.mpr (status_eq_some.mpr ⟨session, hsession, rfl⟩).symm

theorem outcome_decrypt_of_established {service : NoiseService} {peerID : Bytes}
    (h : service.hasEstablishedSession peerID = true) (text : Bytes) (now : ℕ) :
    ∃ service', (decrypt text peerID now).outcome service = (.ok text, service') ∧
      service'.status = service.status :=
  outcome_encrypt_of_established h text now

theorem outcome_decrypt_error {service : NoiseService} {peerID : Bytes}
    (h : service.hasEstablishedSession peerID = false) (text : Bytes) (now : ℕ) :
    ∃ what, (decrypt text peerID now).outcome service = (.error (.runtimeError what), service) := by
  rw [decrypt, outcome_bind_ok (outcome_get service)]
  cases hsession : service.getSession peerID with
  | none => exact ⟨_, rfl⟩
  | some session =>
      have hnew : session.sessionEstablished = false := by
        rw [hasEstablishedSession, hsession] at h
        exact h
      dsimp only
      rw [withSession, outcome_zoom, NoiseSessionDefault.decrypt, NoiseSessionDefault.crypt,
        outcome_bind_ok (outcome_get session), if_pos (by simp [hnew]), outcome_throw,
        putSession_self hsession]
      exact ⟨_, rfl⟩

end NoiseService

end Bitchat
