import CaddyPanel.Lib.Leases
import CaddyPanel.Lib.Rows
import CaddyPanel.Lib.Text

/-!
# Joining a node (`internal/nodejoin/service.go`)

A join token is claimed before anything else is done for the new node, and given back where a later step
fails. Each statement of `Redeem` that reads or writes the database is a step, so any number of calls can
run between two of them; every step can fail.
-/

namespace Nodejoin

open Rows
open Text (Str)

/-- A row of `node_join_tokens`. -/
structure Token where
  hash : Str
  nodeGroupID : ℕ
  maxRoutes : ℕ
  priority : ℕ
  nameHint : Str
  expiresAt : ℕ
  usedAt : Option ℕ := none
  usedNodeID : Option ℕ := none
  deriving DecidableEq

/-- A row of `caddy_nodes`. -/
structure Node where
  id : ℕ
  name : Str
  apiURL : Str
  publicHostname : Str
  publicIP : Option Str
  nodeGroupID : ℕ
  maxRoutes : ℕ
  priority : ℕ
  wgIP : Str
  wgPublicKey : Str
  fingerprint : Str
  wgPskEnc : Option Str
  deriving DecidableEq

/-- What is read of the WireGuard settings. -/
structure ControlPlane where
  endpoint : Str
  controlIP : Str
  subnet : Str

structure JoinRequest where
  tokenHash : Str
  publicHostname : Str
  publicIP : Str

/-- What `Redeem` has when it comes to the loop. -/
structure Registration where
  req : JoinRequest
  token : Token
  publicKey : Str
  pskEnc : Option Str
  publicHostname : Str

/-- A call of `Redeem` between two of its steps. -/
inductive Call where
  /-- the token is marked used, and is read again -/
  | claimed (req : JoinRequest)
  | resolved (req : JoinRequest) (token : Token)
  /-- a step has failed, and the token is given back -/
  | unclaiming (tokenHash : Str)
  | allocating (r : Registration) (attempt : ℕ)
  | inserting (r : Registration) (attempt : ℕ) (wgIP : Str)
  /-- the node exists -/
  | registered (tokenHash : Str) (nodeID : ℕ)

structure State where
  tokens : Rows Token.hash
  nodes : Rows Node.id
  groups : List ℕ
  wg : ControlPlane
  calls : ℕ → Option Call
  /-- history: the tokens whose calls have inserted a node, one entry for each insert -/
  created : List Str

def maxIPAllocAttempts : ℕ := 5

/-! ### Addresses and names -/

/-- `subnetPrefix`: the text before the last dot in front of the slash. -/
def subnetBase (cidr : Str) : Option Str :=
  if '/' ∈ cidr then
    let ip := cidr.takeWhile (· ≠ '/')
    if '.' ∈ ip then some ((ip.reverse.dropWhile (· ≠ '.')).drop 1).reverse else none
  else none

/-- The first free address from `.2` to `.254`. -/
def allocateNodeIP (wg : ControlPlane) (used : List Str) : Option Str := do
  let base ← subnetBase wg.subnet
  ((List.range' 2 253).map fun i => base ++ '.' :: Nat.toDigits 10 i).find? fun ip =>
    ip ≠ wg.controlIP ∧ ip ∉ used

def isNameChar (c : Char) : Bool :=
  c.isAlphanum || c = '.' || c = '_' || c = '-'

def validNodeName (name : Str) : Bool :=
  match name with
  | [] => false
  | c :: rest => c.isAlphanum && rest.all isNameChar && rest.length ≤ 62

def nodeName (token : Token) (wgIP : Str) : Str :=
  if validNodeName token.nameHint then token.nameHint
  else "node-" ++ wgIP.map fun c => if c = '.' then '-' else c

def newNode (r : Registration) (wgIP : Str) (id : ℕ) : Node where
  id := id
  name := nodeName r.token wgIP
  apiURL := "http://" ++ wgIP ++ ":2019"
  publicHostname := if r.publicHostname = [] then nodeName r.token wgIP else r.publicHostname
  publicIP := if r.req.publicIP = [] then none else some r.req.publicIP
  nodeGroupID := r.token.nodeGroupID
  maxRoutes := r.token.maxRoutes
  priority := r.token.priority
  wgIP := wgIP
  wgPublicKey := r.publicKey
  fingerprint := r.publicKey.take 16
  wgPskEnc := r.pskEnc

/-- `uq_node_name` or `uq_nodes_wg_ip`. -/
def duplicate (s : State) (n : Node) : Bool :=
  s.nodes.rows.any fun n' => n'.name = n.name || n'.wgIP = n.wgIP

/-! ### Steps -/

inductive Action where
  /-- what the panel does elsewhere: a new token, and any change of the nodes, the groups and the settings -/
  | generate (token : Token)
  | elsewhere (nodes : Rows Node.id) (groups : List ℕ) (wg : ControlPlane)
  | claim (call : ℕ) (req : JoinRequest) (now : ℕ) (fails : Bool)
  | reread (call : ℕ) (fails : Bool)
  /-- the key pairs and the preshared key; `none` where one of them cannot be made -/
  | prepare (call : ℕ) (keys : Option (Str × Option Str))
  | unclaim (call : ℕ) (fails : Bool)
  /-- `loaded`: whether the addresses in use can be read, which is not checked -/
  | allocate (call : ℕ) (fails loaded : Bool)
  | insert (call : ℕ) (fails : Bool) (nodeID : ℕ)
  | register (call : ℕ) (fails : Bool)

def State.set (s : State) (call : ℕ) (c : Option Call) : State :=
  { s with calls := Function.update s.calls call c }

def claimable (s : State) (hash : Str) (now : ℕ) : Bool :=
  (s.tokens.lookup hash).any fun t => t.usedAt.isNone && now < t.expiresAt

def markUsed (hash : Str) (now : ℕ) (tokens : Rows Token.hash) : Rows Token.hash :=
  tokens.update (fun t => t.hash = hash ∧ t.usedAt = none ∧ now < t.expiresAt) fun t =>
    { t with usedAt := some now }

def unclaimToken (hash : Str) (tokens : Rows Token.hash) : Rows Token.hash :=
  tokens.update (fun t => t.hash = hash) fun t => { t with usedAt := none }

def markNode (hash : Str) (nodeID : ℕ) (tokens : Rows Token.hash) : Rows Token.hash :=
  tokens.update (fun t => t.hash = hash) fun t => { t with usedNodeID := some nodeID }

/-- `claimToken` up to the check of `RowsAffected`; a call that does not get the token ends here. -/
def claimToken (s : State) (call : ℕ) (req : JoinRequest) (now : ℕ) (fails : Bool) : State :=
  if !fails && claimable s req.tokenHash now then
    { s with tokens := markUsed req.tokenHash now s.tokens }.set call (some (.claimed req))
  else s

/-- An error of the INSERT other than a collision. -/
def insertFails (s : State) (n : Node) (fails : Bool) : Bool :=
  fails || n.nodeGroupID ∉ s.groups

def insertNode (s : State) (call : ℕ) (r : Registration) (attempt : ℕ) (n : Node) (fails : Bool) :
    Option State :=
  if insertFails s n fails then some (s.set call none)
  else if duplicate s n then
    if attempt < maxIPAllocAttempts then
      some (s.set call (some (.allocating { r with publicHostname := n.publicHostname } (attempt + 1))))
    else some (s.set call none)
  else
    (s.nodes.insert n).map fun nodes =>
      { s with nodes, created := r.token.hash :: s.created }.set call (some (.registered r.token.hash n.id))

/-- `AllocateNodeIP`, with the error of reading the settings in `fails`. -/
def allocated (s : State) (fails loaded : Bool) : Option Str :=
  if fails then none
  else allocateNodeIP s.wg (if loaded then s.nodes.rows.map (·.wgIP) else [])

def step (s : State) : Action → Option State
  | .generate token =>
    (s.tokens.insert { token with usedAt := none, usedNodeID := none }).map fun tokens => { s with tokens }
  | .elsewhere nodes groups wg => some { s with nodes, groups, wg }
  | .claim call req now fails =>
    if (s.calls call).isSome then none else some (claimToken s call req now fails)
  | .reread call fails =>
    match s.calls call with
    | some (.claimed req) =>
      some (s.set call (if fails then none else (s.tokens.lookup req.tokenHash).map (.resolved req)))
    | _ => none
  | .prepare call keys =>
    match s.calls call with
    | some (.resolved req t) =>
      match keys with
      | some (publicKey, pskEnc) =>
        if s.wg.endpoint = [] then some (s.set call (some (.unclaiming t.hash)))
        else some (s.set call (some (.allocating ⟨req, t, publicKey, pskEnc, req.publicHostname⟩ 1)))
      | none => some (s.set call (some (.unclaiming t.hash)))
    | _ => none
  | .unclaim call fails =>
    match s.calls call with
    | some (.unclaiming hash) =>
      some ({ s with tokens := if fails then s.tokens else unclaimToken hash s.tokens }.set call none)
    | _ => none
  | .allocate call fails loaded =>
    match s.calls call with
    | some (.allocating r attempt) =>
      -- this exit and those of `insertNode` return without `unclaimToken`
      some (s.set call ((allocated s fails loaded).map (.inserting r attempt)))
    | _ => none
  | .insert call fails nodeID =>
    match s.calls call with
    | some (.inserting r attempt wgIP) => insertNode s call r attempt (newNode r wgIP nodeID) fails
    | _ => none
  | .register call fails =>
    match s.calls call with
    | some (.registered hash nodeID) =>
      some ({ s with tokens := if fails then s.tokens else markNode hash nodeID s.tokens }.set call none)
    | _ => none

/-! ### The leases of the tokens -/

/-- The token that a call has claimed and not yet turned into a node. -/
def Call.holds : Call → Option Str
  | .claimed req => some req.tokenHash
  | .resolved _ t => some t.hash
  | .unclaiming hash => some hash
  | .allocating r _ => some r.token.hash
  | .inserting r _ _ => some r.token.hash
  | .registered _ _ => none

/-- The hashes of the tokens that are marked used. -/
def usedTokens (tokens : Rows Token.hash) : Set Str :=
  {hash | ∃ t, tokens.lookup hash = some t ∧ t.usedAt ≠ none}

def State.leases (s : State) : Leases ℕ Str where
  used := usedTokens s.tokens
  holds call := (s.calls call).bind Call.holds
  spent := s.created

lemma leases_set (s : State) (call : ℕ) (c : Option Call) :
    (s.set call c).leases = { s.leases with holds := Function.update s.leases.holds call (c.bind Call.holds) } := by
  have hholds : (s.set call c).leases.holds = Function.update s.leases.holds call (c.bind Call.holds) := by
    funext i
    by_cases hi : i = call
    · subst hi
      simp [State.leases, State.set]
    · simp [State.leases, State.set, Function.update_of_ne hi]
  rw [← hholds]
  rfl

variable {s s' : State} {call now attempt i : ℕ} {hash : Str} {a : Action}

lemma leases_set_same {c : Option Call}
    (h : c.bind Call.holds = s.leases.holds call) : (s.set call c).leases = s.leases := by
  rw [leases_set, h, Function.update_eq_self]

/-- What an update of single rows does to the marks. -/
lemma mem_usedTokens_update {tokens : Rows Token.hash} {p : Token → Bool} {f : Token → Token}
    {hf : ∀ t, (f t).hash = t.hash} :
    hash ∈ usedTokens (tokens.update p f hf) ↔
      ∃ t, tokens.lookup hash = some t ∧ (if p t then f t else t).usedAt ≠ none := by
  simp [usedTokens, lookup_update]

lemma usedTokens_markUsed (h : claimable s hash now) :
    hash ∉ usedTokens s.tokens ∧ usedTokens (markUsed hash now s.tokens) = insert hash (usedTokens s.tokens) := by
  obtain ⟨t, ht, hfree⟩ : ∃ t, s.tokens.lookup hash = some t ∧ t.usedAt = none ∧ now < t.expiresAt := by
    simpa [claimable, Option.any_eq_true] using h
  have hhash : t.hash = hash := (lookup_eq_some.mp ht).2
  refine ⟨?_, Set.ext fun hash' => ?_⟩
  · rintro ⟨t', ht', hused⟩
    rw [ht, Option.some.injEq] at ht'
    exact hused (ht' ▸ hfree.1)
  rw [markUsed, mem_usedTokens_update]
  constructor
  · rintro ⟨t', ht', hused⟩
    by_cases hp : t'.hash = hash
    · exact .inl ((lookup_eq_some.mp ht').2.symm.trans hp)
    · simp only [hp, false_and, decide_false, Bool.false_eq_true] at hused
      exact .inr ⟨t', ht', hused⟩
  · rintro (rfl | ⟨t', ht', hused⟩)
    · exact ⟨t, ht, by simp [hhash, hfree]⟩
    refine ⟨t', ht', ?_⟩
    split
    · simp
    · exact hused

lemma usedTokens_unclaimToken (hash : Str) (tokens : Rows Token.hash) :
    usedTokens (unclaimToken hash tokens) = usedTokens tokens \ {hash} := by
  ext hash'
  rw [unclaimToken, mem_usedTokens_update, Set.mem_sdiff, Set.mem_singleton_iff]
  constructor
  · rintro ⟨t, ht, hused⟩
    have hhash : t.hash = hash' := (lookup_eq_some.mp ht).2
    by_cases hp : t.hash = hash
    · simp [hp] at hused
    · simp only [hp, decide_false, Bool.false_eq_true] at hused
      exact ⟨⟨t, ht, hused⟩, hhash ▸ hp⟩
  · rintro ⟨⟨t, ht, hused⟩, hne⟩
    have hhash : t.hash = hash' := (lookup_eq_some.mp ht).2
    exact ⟨t, ht, by simpa [hhash, hne] using hused⟩

lemma usedTokens_markNode (hash : Str) (nodeID : ℕ) (tokens : Rows Token.hash) :
    usedTokens (markNode hash nodeID tokens) = usedTokens tokens := by
  ext hash'
  rw [markNode, mem_usedTokens_update]
  refine exists_congr fun t => and_congr_right fun _ => ?_
  split <;> exact Iff.rfl

lemma usedTokens_insert {tokens tokens' : Rows Token.hash} {t : Token} (ht : t.usedAt = none)
    (h : tokens.insert t = some tokens') : usedTokens tokens' = usedTokens tokens := by
  ext hash
  simp only [usedTokens, lookup_eq_some]
  refine exists_congr fun t' => ?_
  rw [mem_insert h]
  constructor
  · rintro ⟨⟨hmem | rfl, hhash⟩, hused⟩
    · exact ⟨⟨hmem, hhash⟩, hused⟩
    · exact absurd ht hused
  · rintro ⟨⟨hmem, hhash⟩, hused⟩
    exact ⟨⟨.inl hmem, hhash⟩, hused⟩

/-! ### What a step can do -/

/-- The exits that do not give the token back: its second read fails, no address can be allocated, the node
cannot be inserted, and the write that would give the token back fails itself. -/
def uncompensated (s : State) : Action → Bool
  | .reread call fails =>
    match s.calls call with
    | some (.claimed _) => fails
    | _ => false
  | .unclaim call fails =>
    match s.calls call with
    | some (.unclaiming _) => fails
    | _ => false
  | .allocate call fails loaded =>
    match s.calls call with
    | some (.allocating _ _) => (allocated s fails loaded).isNone
    | _ => false
  | .insert call fails nodeID =>
    match s.calls call with
    | some (.inserting r attempt wgIP) =>
      let n := newNode r wgIP nodeID
      insertFails s n fails || (duplicate s n && maxIPAllocAttempts ≤ attempt)
    | _ => false
  | _ => false

lemma holds_of_calls {c : Call} (h : s.calls call = some c) : s.leases.holds call = c.holds := by
  simp [State.leases, h]

/-- The steps, by what becomes of the call and of the token that it holds. -/
inductive Move (s : State) : Action → State → Prop
  | aside {a : Action} {s' : State} (hcalls : s'.calls = s.calls) (hleases : s'.leases = s.leases) : Move s a s'
  | take {a : Action} {call now : ℕ} {req : JoinRequest} (h : claimable s req.tokenHash now) :
    Move s a ({ s with tokens := markUsed req.tokenHash now s.tokens }.set call (some (.claimed req)))
  | carry {a : Action} {call : ℕ} {c : Call} (h : s.leases.holds call = c.holds) : Move s a (s.set call (some c))
  | leave {a : Action} {call : ℕ} {hash : Str} (hholds : s.leases.holds call = some hash)
    (h : uncompensated s a ∨ s.tokens.lookup hash = none) : Move s a (s.set call none)
  | giveBack {call : ℕ} {hash : Str} (h : s.calls call = some (.unclaiming hash)) :
    Move s (.unclaim call false) ({ s with tokens := unclaimToken hash s.tokens }.set call none)
  | spend {a : Action} {call : ℕ} {hash : Str} {c : Call} (nodes : Rows Node.id)
    (hholds : s.leases.holds call = some hash) (hc : c.holds = none) :
    Move s a ({ s with nodes, created := hash :: s.created }.set call (some c))
  | finish {a : Action} {call : ℕ} {tokens : Rows Token.hash} (hholds : s.leases.holds call = none)
    (hused : usedTokens tokens = usedTokens s.tokens) : Move s a ({ s with tokens }.set call none)

lemma insertNode_move {r : Registration} {wgIP : Str} {nodeID : ℕ} {fails : Bool}
    (hcall : s.calls call = some (.inserting r attempt wgIP))
    (h : insertNode s call r attempt (newNode r wgIP nodeID) fails = some s') :
    Move s (.insert call fails nodeID) s' := by
  have hholds : s.leases.holds call = some r.token.hash := holds_of_calls hcall
  unfold insertNode at h
  split_ifs at h with hfails hdup hlast
  · cases h
    exact .leave hholds (.inl (by simp [uncompensated, hcall, hfails]))
  · cases h
    exact .carry hholds
  · cases h
    exact .leave hholds (.inl (by simp [uncompensated, hcall, hdup, Nat.not_lt.mp hlast]))
  · obtain ⟨nodes, -, rfl⟩ := Option.map_eq_some_iff.mp h
    exact .spend nodes hholds rfl

lemma step_move (h : step s a = some s') : Move s a s' := by
  cases a with
  | generate token =>
    obtain ⟨tokens, htokens, rfl⟩ := Option.map_eq_some_iff.mp h
    exact .aside rfl (by simp only [State.leases, usedTokens_insert rfl htokens])
  | elsewhere nodes groups wg =>
    cases h
    exact .aside rfl rfl
  | claim call req now fails =>
    simp only [step, claimToken] at h
    split_ifs at h with hbusy hfree <;> cases h
    · exact .take (Bool.and_eq_true_iff.mp hfree).2
    · exact .aside rfl rfl
  | reread call fails =>
    simp only [step] at h
    split at h <;> cases h
    next req hcall =>
    have hholds : s.leases.holds call = some req.tokenHash := holds_of_calls hcall
    cases fails with
    | true => exact .leave hholds (.inl (by simp [uncompensated, hcall]))
    | false =>
      cases ht : s.tokens.lookup req.tokenHash with
      | none => exact .leave hholds (.inr ht)
      | some t => exact .carry (hholds.trans (congrArg some (lookup_eq_some.mp ht).2.symm))
  | prepare call keys =>
    simp only [step] at h
    split at h
    · next req t hcall =>
      have hholds : s.leases.holds call = some t.hash := holds_of_calls hcall
      split at h
      · split at h <;> cases h <;> exact .carry hholds
      · cases h
        exact .carry hholds
    · cases h
  | unclaim call fails =>
    simp only [step] at h
    split at h <;> cases h
    next hash hcall =>
    cases fails with
    | true => exact .leave (holds_of_calls hcall) (.inl (by simp [uncompensated, hcall]))
    | false => exact .giveBack hcall
  | allocate call fails loaded =>
    simp only [step] at h
    split at h <;> cases h
    next r attempt hcall =>
    have hholds : s.leases.holds call = some r.token.hash := holds_of_calls hcall
    cases hip : allocated s fails loaded with
    | none => exact .leave hholds (.inl (by simp [uncompensated, hcall, hip]))
    | some wgIP => exact .carry hholds
  | insert call fails nodeID =>
    simp only [step] at h
    split at h
    · next r attempt wgIP hcall => exact insertNode_move hcall h
    · cases h
  | register call fails =>
    simp only [step] at h
    split at h <;> cases h
    next hash nodeID hcall =>
    refine .finish (holds_of_calls hcall) ?_
    split
    · rfl
    · exact usedTokens_markNode hash nodeID s.tokens

/-- Every step of the panel is a step of the leases. -/
theorem step_leases (h : step s a = some s') : Leases.Step s.leases s'.leases := by
  cases step_move h with
  | aside _ hleases =>
    rw [hleases]
    exact .stay _
  | @take _ call _ req hclaim =>
    obtain ⟨hfree, hused⟩ := usedTokens_markUsed hclaim
    have htake := Leases.Step.take s.leases call req.tokenHash hfree
    rw [leases_set]
    rwa [show s.leases.used = usedTokens s.tokens from rfl, ← hused] at htake
  | carry hholds =>
    rw [leases_set_same (by rw [hholds]; rfl)]
    exact .stay _
  | leave hholds =>
    rw [leases_set]
    exact .abandon s.leases _ _ hholds
  | giveBack hcall =>
    have hback := Leases.Step.giveBack s.leases _ _ ((holds_of_calls hcall).trans rfl)
    rw [leases_set]
    rwa [show s.leases.used = usedTokens s.tokens from rfl, ← usedTokens_unclaimToken] at hback
  | spend nodes hholds hc =>
    have hspend := Leases.Step.spend s.leases _ _ hholds
    rw [leases_set]
    rwa [← hc] at hspend
  | @finish _ _ tokens hholds hused =>
    have hsame : State.leases { s with tokens } = s.leases := by simp only [State.leases, hused]
    rw [leases_set_same (by rw [hsame, hholds]; rfl), hsame]
    exact .stay _

/-! ### Calls that end without a node -/

/-- Only its expiry now keeps the token from being claimed. -/
def redeemable (s : State) (hash : Str) : Bool :=
  (s.tokens.lookup hash).any fun t => t.usedAt.isNone

/-- Where the step ends a call that has claimed a token and made no node of it, the token can be redeemed. -/
def LeavesRedeemable (s : State) (a : Action) : Prop :=
  ∀ s' call hash, step s a = some s' → s.leases.holds call = some hash → s'.calls call = none →
    redeemable s' hash

lemma uncompensated_ends (h : uncompensated s a) :
    ∃ call hash, s.leases.holds call = some hash ∧ step s a = some (s.set call none) := by
  unfold uncompensated at h
  split at h
  · next call fails =>
    split at h
    · next req hcall =>
      refine ⟨call, req.tokenHash, by simp [State.leases, hcall, Call.holds], ?_⟩
      simp [step, hcall, h]
    · cases h
  · next call fails =>
    split at h
    · next hash hcall =>
      refine ⟨call, hash, by simp [State.leases, hcall, Call.holds], ?_⟩
      simp [step, hcall, h]
    · cases h
  · next call fails loaded =>
    split at h
    · next r attempt hcall =>
      refine ⟨call, r.token.hash, by simp [State.leases, hcall, Call.holds], ?_⟩
      rw [Option.isNone_iff_eq_none] at h
      simp [step, hcall, h]
    · cases h
  · next call fails nodeID =>
    split at h
    · next r attempt wgIP hcall =>
      refine ⟨call, r.token.hash, by simp [State.leases, hcall, Call.holds], ?_⟩
      simp only [step, hcall, insertNode]
      simp only [Bool.or_eq_true, Bool.and_eq_true, decide_eq_true_eq] at h
      obtain h | ⟨hdup, hlast⟩ := h
      · rw [if_pos h]
      · rw [if_pos hdup, if_neg (Nat.not_lt.mpr hlast), ite_self]
    · cases h
  · cases h

/-- A call is over only if the step was its own. -/
lemma own_of_set_none {c : Option Call}
    (hholds : s.leases.holds i = some hash) (h : (s.set call c).calls i = none) : i = call ∧ c = none := by
  by_cases hi : i = call
  · subst hi
    simpa [State.set] using h
  · simp only [State.set, Function.update_of_ne hi] at h
    simp [State.leases, h] at hholds

/-- A call that ends without a node has given its token back, or left through one of the other exits. -/
lemma ends_cases (hs : s.leases.Sound)
    (h : step s a = some s') (hholds : s.leases.holds call = some hash) (hend : s'.calls call = none) :
    uncompensated s a ∨ a = .unclaim call false ∧ s.calls call = some (.unclaiming hash) := by
  cases step_move h with
  | aside hcalls =>
    rw [hcalls] at hend
    simp [State.leases, hend] at hholds
  | take | carry | spend => cases (own_of_set_none hholds hend).2
  | leave hholds' hexit =>
    obtain ⟨rfl, -⟩ := own_of_set_none hholds hend
    cases hholds.symm.trans hholds'
    -- a claimed token has a row
    obtain ⟨t, ht, -⟩ := hs.used_of_holds call hash hholds
    exact .inl (hexit.resolve_right (by simp [ht]))
  | giveBack hcall =>
    obtain ⟨rfl, -⟩ := own_of_set_none hholds hend
    have hhash : some hash = some _ := hholds.symm.trans (holds_of_calls hcall)
    exact .inr ⟨rfl, Option.some.inj hhash ▸ hcall⟩
  | finish hidle =>
    obtain ⟨rfl, -⟩ := own_of_set_none hholds hend
    cases hholds.symm.trans hidle

lemma not_redeemable_of_used (h : hash ∈ s.leases.used) : redeemable s hash = false := by
  obtain ⟨t, ht, hused⟩ := h
  simp [redeemable, ht, Option.isSome_iff_ne_none, hused]

lemma leavesRedeemable_iff (hs : s.leases.Sound) : LeavesRedeemable s a ↔ uncompensated s a = false := by
  constructor
  · intro h
    by_contra hun
    obtain ⟨call, hash, hholds, hstep⟩ := uncompensated_ends (Bool.eq_true_of_not_eq_false hun)
    have hleft := h _ call hash hstep hholds (by simp [State.set])
    have hused : hash ∈ (s.set call none).leases.used := hs.used_of_holds call hash hholds
    rw [not_redeemable_of_used hused] at hleft
    cases hleft
  · intro hcomp s' call hash h hholds hend
    obtain hun | ⟨rfl, hcall⟩ := ends_cases hs h hholds hend
    · rw [hun] at hcomp
      cases hcomp
    simp only [step, hcall, Bool.false_eq_true] at h
    cases h
    obtain ⟨t, ht, -⟩ := hs.used_of_holds call hash hholds
    have hhash : t.hash = hash := (lookup_eq_some.mp ht).2
    simp [redeemable, State.set, unclaimToken, lookup_update, ht, hhash]

/-! ### Runs -/

/-- No call is under way. -/
structure Idle (s : State) : Prop where
  calls : ∀ call, s.calls call = none
  created : s.created = []

lemma Idle.sound (hs : Idle s) : s.leases.Sound :=
  Leases.sound_of_idle (fun call => by simp [State.leases, hs.calls call]) hs.created

lemma sound_step (s : State) (a : Action) (s' : State) (hs : s.leases.Sound) (h : step s a = some s') :
    s'.leases.Sound :=
  hs.step (step_leases h)

/-- However calls interleave and whatever fails, a token creates at most one node; and every call that ends
without one leaves its token redeemable exactly where no call leaves through an exit that does not give the
token back. -/
theorem one_node_and_redeemable_iff {s : State} (hs : Idle s) (as : List Action) :
    (∀ s', Runs.run step s as = some s' → s'.created.Nodup) ∧
      (Runs.Meets step LeavesRedeemable s as ↔ Runs.Meets step (fun s a => uncompensated s a = false) s as) := by
  constructor
  · intro s' h
    have hsound := Runs.run_invariant (I := fun s => s.leases.Sound) sound_step hs.sound h
    exact hsound.spent_once
  · refine Runs.meets_iff_of_invariant (fun s a s' hsound _ h => sound_step s a s' hsound h) ?_ hs.sound as
    exact fun _ _ hsound => leavesRedeemable_iff hsound

/-- One node `edge-1`, and a token whose hint is that name. -/
def namedTwice : State where
  tokens := ⟨[⟨"t", 1, 1000, 100, "edge-1", 30, none, none⟩], by decide⟩
  nodes := ⟨[⟨1, "edge-1", "http://10.66.0.2:2019", "edge-1", none, 1, 1000, 100,
    "10.66.0.2", "k", "k", none⟩], by decide⟩
  groups := [1]
  wg := ⟨"panel:51820", "10.66.0.1", "10.66.0.0/24"⟩
  calls := fun _ => none
  created := []

/-- One call on it, in which nothing but the five inserts fails. -/
def redeemNamedTwice : List Action :=
  [.claim 0 ⟨"t", [], []⟩ 10 false, .reread 0 false, .prepare 0 (some ("n", none))] ++
    (List.replicate 5 [.allocate 0 false true, .insert 0 false 2]).flatten

lemma namedTwice_idle : Idle namedTwice :=
  ⟨fun _ => rfl, rfl⟩

theorem one_node_and_redeemable_iff_namedTwice : Idle namedTwice ∧
      (∀ s', Runs.run step namedTwice redeemNamedTwice = some s' → s'.created.Nodup) ∧
      (Runs.Meets step LeavesRedeemable namedTwice redeemNamedTwice ↔
        Runs.Meets step (fun s a => uncompensated s a = false) namedTwice redeemNamedTwice) :=
  ⟨namedTwice_idle, one_node_and_redeemable_iff namedTwice_idle redeemNamedTwice⟩

/-- The five inserts collide on the name, the call ends without a node, and the token stays used although it
has not expired. -/
theorem name_collision_burns_token : (Runs.run step namedTwice redeemNamedTwice).map (fun s =>
      (s.calls 0).isNone && s.created.isEmpty && s.nodes.rows = namedTwice.nodes.rows &&
        !claimable s "t" 20) = some true ∧ claimable namedTwice "t" 20 := by
  decide +kernel

end Nodejoin
