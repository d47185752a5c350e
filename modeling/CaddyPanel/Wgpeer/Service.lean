import CaddyPanel.Lib.Rows
import CaddyPanel.Lib.Runs
import CaddyPanel.Lib.Tables
import CaddyPanel.Lib.Text

/-!
# Customer tunnels (`internal/domain/wgpeer/service.go`)

The status of a WireGuard peer is written by `Revoke`, `RotateKey` and `ConsumeBootstrap`. A transaction
that writes is one step here; what a function reads before it writes is a step of its own, so that any
other function can run in between.
-/

namespace Wgpeer

open List Option Rows
open Text (Str)
open Tables (Table)

inductive Status where
  | pending
  | active
  | revoked
  deriving DecidableEq

/-- A row of `customer_wg_peer`. A peer outside an HA group has the empty group. -/
structure Peer where
  id : ℕ
  nodeID : ℕ
  group : Str
  pubkey : Str
  encPriv : Str
  encPSK : Option Str
  status : Status
  activatedAt : Option ℕ := none
  revokedAt : Option ℕ := none
  lastRotatedAt : Option ℕ := none
  deriving DecidableEq

/-- A row of `customer_wg_bootstrap`. -/
structure Bootstrap where
  token : Str
  peerID : ℕ
  expiresAt : ℕ
  consumedAt : Option ℕ := none
  deriving DecidableEq

/-- What is read of a row of `caddy_nodes`. -/
structure Node where
  id : ℕ
  agentPSK : Bool
  endpoint : Option Str
  tunnelPubkey : Option Str
  tunnelSubnet : Option Str

/-- A call between two of its steps. -/
inductive Job where
  /-- `RotateKey` before its transaction -/
  | rotating (peerID : ℕ) (group : Str) (withPSK : Bool)
  /-- `RotateKey` after its transaction -/
  | issuing (peerID : ℕ)
  /-- `ConsumeBootstrap` after its reads; the token's row is locked -/
  | consuming (token : Str) (peerID : ℕ) (group : Str)

structure State where
  peers : Rows Peer.id
  tokens : Rows Bootstrap.token
  nodes : List Node
  jobs : Table ℕ Job

/-! ### Tokens -/

def bootstrapTTL : ℕ := 3600

/-- The row of the peer must exist. -/
def issueBootstrap (s : State) (token : Str) (peerID now : ℕ) : Option State :=
  if s.peers.lookup peerID = none then none
  else
    (s.tokens.insert { token, peerID, expiresAt := now + bootstrapTTL }).map fun tokens =>
      { s with tokens }

/-! ### Revoke -/

def revoke (peerID now : ℕ) (peers : Rows Peer.id) : Rows Peer.id :=
  peers.update (fun r => r.id = peerID ∧ r.status ≠ .revoked) fun r =>
    { r with status := .revoked, revokedAt := some now }

/-! ### RotateKey -/

def groupNodeIDs (peers : Rows Peer.id) (nodeID : ℕ) (group : Str) : List ℕ :=
  if group = [] then [nodeID]
  else
    let siblings := (peers.rows.filter fun r => r.group = group ∧ r.status ≠ .revoked).map (·.nodeID)
    nodeID :: (siblings.filter (· ≠ nodeID)).dedup

/-- The nodes that cannot take a preshared key, where the group has one already. -/
structure PSKUnsupported where
  missing : List ℕ

def groupSupportsPSK (s : State) (nodeIDs : List ℕ) (group : Str) : Except PSKUnsupported Bool :=
  let missing := nodeIDs.filter fun id => !s.nodes.any fun n => n.agentPSK && n.id = id
  if missing = [] then .ok true
  else if group ≠ [] ∧ s.peers.rows.any (fun r => r.group = group && r.encPSK.isSome) then .error ⟨missing⟩
  else .ok false

/-- The reads of `RotateKey`. A node without support costs the group its preshared keys. -/
def rotateRead (s : State) (peerID : ℕ) : Option Job :=
  (s.peers.lookup peerID).map fun r =>
    match groupSupportsPSK s (groupNodeIDs s.peers r.nodeID r.group) r.group with
    | .ok withPSK => .rotating peerID r.group withPSK
    | .error _ => .rotating peerID r.group false

/-- The peer itself, and the other members of its group that are not revoked. -/
def rotationTargets (peers : Rows Peer.id) (peerID : ℕ) (group : Str) : List ℕ :=
  if group = [] then [peerID]
  else
    let members := (peers.rows.filter fun r => r.group = group ∧ r.status ≠ .revoked).map (·.id)
    peerID :: members.filter (· ≠ peerID)

/-- The new keys: one pair for the group, a preshared key for each row. -/
structure NewKeys where
  pubkey : Str
  encPriv : Str
  encPSK : ℕ → Str

def rotate (keys : NewKeys) (withPSK : Bool) (targets : List ℕ) (now : ℕ) (peers : Rows Peer.id) :
    Rows Peer.id :=
  peers.update (fun r => r.id ∈ targets) fun r =>
    { r with
      pubkey := keys.pubkey
      encPriv := keys.encPriv
      encPSK := if withPSK then some (keys.encPSK r.id) else none
      status := .pending
      lastRotatedAt := some now }

/-! ### ConsumeBootstrap -/

def locked (s : State) (token : Str) : Bool :=
  s.jobs.entries.any fun
    | ⟨_, .consuming token' _ _⟩ => token' = token
    | _ => false

def Node.configured (n : Node) : Bool :=
  n.endpoint.isSome && n.tunnelPubkey.isSome && n.tunnelSubnet.isSome

/-- The reads of `ConsumeBootstrap`, with the check of the status. -/
def consumeRead (s : State) (token : Str) (now : ℕ) : Option Job :=
  if (Text.trimSpace token).length ≠ 192 ∨ locked s (Text.trimSpace token) then none
  else do
    let t ← s.tokens.rows.find? fun t => t.token = Text.trimSpace token ∧ t.consumedAt = none ∧ now < t.expiresAt
    let r ← s.peers.lookup t.peerID
    let n ← s.nodes.find? (·.id = r.nodeID)
    if r.status = .revoked ∨ n.configured = false then none
    else some (.consuming t.token r.id r.group)

def activate (now : ℕ) (r : Peer) : Peer :=
  { r with status := .active, activatedAt := r.activatedAt <|> some now }

lemma id_activate (now : ℕ) (r : Peer) : (activate now r).id = r.id := rfl

/-- The writes to the peers: the first one looks at nothing but the id. -/
def activatePeers (peerID : ℕ) (group : Str) (now : ℕ) (peers : Rows Peer.id) : Rows Peer.id :=
  let peers := peers.update (fun r => r.id = peerID) (activate now) (id_activate now)
  if group = [] then peers
  else peers.update (fun r => r.group = group ∧ r.status ≠ .revoked) (activate now) (id_activate now)

def consumeToken (token : Str) (now : ℕ) (tokens : Rows Bootstrap.token) : Rows Bootstrap.token :=
  tokens.update (fun t => t.token = token) fun t => { t with consumedAt := some now }

/-! ### Interleavings -/

inductive Action where
  | revoke (peerID now : ℕ)
  | reissueBootstrap (peerID : ℕ) (token : Str) (now : ℕ)
  | rotateRead (job peerID : ℕ)
  | rotateWrite (job : ℕ) (keys : NewKeys) (now : ℕ)
  | rotateIssue (job : ℕ) (token : Str) (now : ℕ)
  | consumeRead (job : ℕ) (token : Str) (now : ℕ)
  | consumeWrite (job now : ℕ)
  /-- a step of the call fails, and its transaction is rolled back -/
  | fail (job : ℕ)

def begin (s : State) (job : ℕ) (read : Option Job) : Option State :=
  if job ∈ s.jobs then none else read.map fun j => { s with jobs := s.jobs.insert job j }

def step (s : State) : Action → Option State
  | .revoke peerID now => some { s with peers := revoke peerID now s.peers }
  | .reissueBootstrap peerID token now => issueBootstrap s token peerID now
  | .rotateRead job peerID => begin s job (rotateRead s peerID)
  | .rotateWrite job keys now =>
    match s.jobs.lookup job with
    | some (.rotating peerID group withPSK) =>
      some { s with
        peers := rotate keys withPSK (rotationTargets s.peers peerID group) now s.peers
        jobs := s.jobs.insert job (.issuing peerID) }
    | _ => none
  | .rotateIssue job token now =>
    match s.jobs.lookup job with
    | some (.issuing peerID) => issueBootstrap { s with jobs := s.jobs.erase job } token peerID now
    | _ => none
  | .consumeRead job token now => begin s job (consumeRead s token now)
  | .consumeWrite job now =>
    match s.jobs.lookup job with
    | some (.consuming token peerID group) =>
      some { s with
        peers := activatePeers peerID group now s.peers
        tokens := consumeToken token now s.tokens
        jobs := s.jobs.erase job }
    | _ => none
  | .fail job => some { s with jobs := s.jobs.erase job }

def Revoked (peers : Rows Peer.id) (peerID : ℕ) : Prop :=
  (peers.lookup peerID).map (·.status) = some .revoked

instance (peers : Rows Peer.id) (peerID : ℕ) : Decidable (Revoked peers peerID) :=
  inferInstanceAs (Decidable (_ = _))

/-- The peer that a write names by its id alone. -/
def namedByWrite (s : State) : Action → Option ℕ
  | .rotateWrite job _ _ =>
    match s.jobs.lookup job with
    | some (.rotating peerID _ _) => some peerID
    | _ => none
  | .consumeWrite job _ =>
    match s.jobs.lookup job with
    | some (.consuming _ peerID _) => some peerID
    | _ => none
  | _ => none

/-! ### What a write does to a revoked peer -/

section Writes

variable {peers : Rows Peer.id} {r : Peer}

variable {id peerID : ℕ} {group : Str}

lemma exists_of_revoked (h : Revoked peers id) : ∃ r ∈ peers, r.id = id ∧ r.status = .revoked := by
  obtain ⟨r, hr, hstatus⟩ := map_eq_some_iff.mp h
  obtain ⟨hmem, hid⟩ := lookup_eq_some.mp hr
  exact ⟨r, hmem, hid, hstatus⟩

lemma revoked_update {p : Peer → Bool} {f : Peer → Peer} {hf : ∀ r, (f r).id = r.id} (hr : r ∈ peers) :
    Revoked (peers.update p f hf) r.id ↔ (if p r then f r else r).status = .revoked := by
  rw [Revoked, lookup_update, lookup_key hr, map_some, map_some, Option.some.injEq]

/-- A revoked peer is a target of the rotation of no other peer. -/
lemma mem_rotationTargets (hr : r ∈ peers) (hrevoked : r.status = .revoked) :
    r.id ∈ rotationTargets peers peerID group ↔ peerID = r.id := by
  have hmember : ∀ r' ∈ peers, r'.status ≠ .revoked → r'.id ≠ r.id := by
    intro r' hr' hlive hid
    have hlookup := lookup_key hr'
    rw [hid, lookup_key hr] at hlookup
    cases hlookup
    exact hlive hrevoked
  unfold rotationTargets
  split
  · rw [mem_singleton, eq_comm]
  rw [mem_cons, mem_filter, List.mem_map]
  constructor
  · rintro (hid | ⟨⟨r', hr', hid⟩, -⟩)
    · exact hid.symm
    obtain ⟨hr', hlive⟩ := mem_filter.mp hr'
    simp only [decide_eq_true_eq] at hlive
    exact absurd hid (hmember r' hr' hlive.2)
  · intro hid
    exact .inl hid.symm

lemma revoked_rotate (keys : NewKeys) (withPSK : Bool) (now : ℕ) (hr : r ∈ peers) (hrevoked : r.status = .revoked) :
    Revoked (rotate keys withPSK (rotationTargets peers peerID group) now peers) r.id ↔ peerID ≠ r.id := by
  have htarget : r.id ∈ rotationTargets peers peerID group ↔ peerID = r.id :=
    mem_rotationTargets hr hrevoked
  rw [rotate, revoked_update hr, ne_eq, ← htarget]
  by_cases h : r.id ∈ rotationTargets peers peerID group <;> simp [h, hrevoked]

lemma revoked_activatePeers (now : ℕ) (hr : r ∈ peers) (hrevoked : r.status = .revoked) :
    Revoked (activatePeers peerID group now peers) r.id ↔ peerID ≠ r.id := by
  have hfirst : Revoked (peers.update (fun r => r.id = peerID) (activate now) (id_activate now)) r.id ↔
      peerID ≠ r.id := by
    rw [revoked_update hr]
    by_cases h : r.id = peerID
    · simp [h, activate]
    · simp [h, hrevoked, Ne.symm h]
  unfold activatePeers
  split
  · exact hfirst
  rw [← hfirst]
  constructor
  · intro h
    -- the update of the group makes no peer revoked
    obtain ⟨r₂, hr₂, hid, hstatus⟩ := exists_of_revoked h
    obtain ⟨r₁, hr₁, hr₁₂⟩ := mem_update.mp hr₂
    split at hr₁₂
    · subst hr₁₂
      cases hstatus
    · subst hr₁₂
      rw [← hid, Revoked, lookup_key hr₁, map_some, hstatus]
  · intro h
    obtain ⟨r₁, hr₁, hid, hstatus⟩ := exists_of_revoked h
    rw [← hid, revoked_update hr₁]
    simp [hstatus]

end Writes

/-! ### Revocation is final -/

variable {s s' : State} {id peerID now job : ℕ}

lemma peers_of_issueBootstrap {token : Str} (h : issueBootstrap s token peerID now = some s') : s'.peers = s.peers := by
  unfold issueBootstrap at h
  split at h
  · cases h
  · obtain ⟨tokens, -, rfl⟩ := map_eq_some_iff.mp h
    rfl

lemma peers_of_begin {read : Option Job} (h : begin s job read = some s') : s'.peers = s.peers := by
  unfold begin at h
  split at h
  · cases h
  · obtain ⟨j, -, rfl⟩ := map_eq_some_iff.mp h
    rfl

/-- A revoked peer stays revoked in a step, unless the step writes the peer by its id alone. -/
lemma revoked_step {a : Action} (h : step s a = some s')
    (hrevoked : Revoked s.peers id) : Revoked s'.peers id ↔ namedByWrite s a ≠ some id := by
  obtain ⟨r, hr, rfl, hstatus⟩ := exists_of_revoked hrevoked
  cases a with
  | revoke peerID now =>
    cases h
    rw [revoke, revoked_update hr]
    simp [namedByWrite, hstatus]
  | reissueBootstrap peerID token now =>
    rw [peers_of_issueBootstrap h]
    simpa [namedByWrite] using hrevoked
  | rotateRead job peerID =>
    rw [peers_of_begin h]
    simpa [namedByWrite] using hrevoked
  | rotateWrite job keys now =>
    simp only [step] at h
    split at h
    · next peerID group withPSK hjob =>
      cases h
      simpa [namedByWrite, hjob] using revoked_rotate keys withPSK now hr hstatus
    · cases h
  | rotateIssue job token now =>
    simp only [step] at h
    split at h
    · rw [peers_of_issueBootstrap h]
      simpa [namedByWrite] using hrevoked
    · cases h
  | consumeRead job token now =>
    rw [peers_of_begin h]
    simpa [namedByWrite] using hrevoked
  | consumeWrite job now =>
    simp only [step] at h
    split at h
    · next token peerID group hjob =>
      cases h
      simpa [namedByWrite, hjob] using revoked_activatePeers now hr hstatus
    · cases h
  | fail job =>
    cases h
    simpa [namedByWrite] using hrevoked

lemma step_of_namedByWrite {a : Action} (h : namedByWrite s a = some id) : ∃ s', step s a = some s' := by
  cases a with
  | rotateWrite job keys now =>
    simp only [namedByWrite] at h
    split at h
    · next hjob => exact ⟨_, by simp only [step, hjob]; rfl⟩
    · cases h
  | consumeWrite job now =>
    simp only [namedByWrite] at h
    split at h
    · next hjob => exact ⟨_, by simp only [step, hjob]; rfl⟩
    · cases h
  | _ => cases h

/-- In any interleaving the revoked peers stay revoked just when no write finds the peer revoked that it
is made for. -/
theorem revoked_stable_iff (s : State) (as : List Action) :
    (∀ id, Runs.Stable step (fun s => Revoked s.peers id) s as) ↔
      Runs.Meets step (fun s a => ∀ id, namedByWrite s a = some id → ¬ Revoked s.peers id) s as := by
  simp only [Runs.stable_iff_meets, Runs.forall_meets]
  refine Runs.meets_congr (fun s a => ?_) s as
  constructor
  · intro h id hname hrevoked
    obtain ⟨s', hstep⟩ := step_of_namedByWrite hname
    exact (revoked_step hstep hrevoked).mp (h id s' hstep hrevoked) hname
  · intro h id s' hstep hrevoked
    rw [revoked_step hstep hrevoked]
    intro hname
    exact h id hname hrevoked

/-! ### Two ways back -/

def tunnelToken : Str := List.replicate 192 'a'

/-- One active tunnel, with a token to download its configuration again. -/
def oneTunnel : State where
  peers :=
    { rows := [⟨1, 1, [], "pub", "priv", none, .active, some 0, none, none⟩]
      nodup := by decide }
  tokens := { rows := [⟨tunnelToken, 1, 3600, none⟩], nodup := by decide }
  nodes := [⟨1, false, some "node:51820", some "key", some "10.8.0.0/24"⟩]
  jobs := ∅

def newKeys : NewKeys := ⟨"pub2", "priv2", fun _ => []⟩

/-- The status of the tunnel after a run. -/
def statusAfter (as : List Action) : Option Status :=
  (Runs.run step oneTunnel as).bind fun s => (s.peers.lookup 1).map (·.status)

/-- A revoked peer becomes pending when its key is rotated; and it becomes active when the revocation
falls between the status check and the write of `ConsumeBootstrap`. -/
theorem revoked_peer_returns : (statusAfter [.revoke 1 10] = some .revoked ∧
      statusAfter [.revoke 1 10, .rotateRead 0 1, .rotateWrite 0 newKeys 20] = some .pending) ∧
    statusAfter [.consumeRead 0 tunnelToken 5, .revoke 1 10] = some .revoked ∧
      statusAfter [.consumeRead 0 tunnelToken 5, .revoke 1 10, .consumeWrite 0 20] = some .active := by
  decide +kernel

end Wgpeer
