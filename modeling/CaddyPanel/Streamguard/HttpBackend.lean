import CaddyPanel.Lib.Runs
import CaddyPanel.Lib.Text

/-!
# Screening of dial targets (`streamguard`)

`NetLib` is what the panel uses of the `net` package and of its resolver: addresses, their text
form and what a name resolves to. A deny set holds the control plane's names and addresses.
-/

namespace Streamguard

open List
open Text (Str trimSpace toLower)

structure NetLib where
  Addr : Type
  /-- `net.ParseIP` -/
  parseIP : Str → Option Addr
  /-- `netip.ParseAddr`, which also takes zones -/
  parseAddr : Str → Option Addr
  /-- the text form of an address -/
  render : Addr → Str
  /-- `IsDangerousProxyBackend` -/
  dangerous : Addr → Bool
  /-- `isAllowedIP` -/
  isPublic : Addr → Bool
  /-- the answer of the resolver -/
  lookup : Str → Option (List Addr)
  parseIP_render : ∀ a, parseIP (render a) = some a
  trimSpace_render : ∀ a, trimSpace (render a) = render a
  parseIP_nil : parseIP [] = none

variable {net : NetLib}

lemma NetLib.render_ne_nil (a : net.Addr) : net.render a ≠ [] := by
  intro h
  have hparse := net.parseIP_render a
  rw [h, net.parseIP_nil] at hparse
  cases hparse

/-- `InfraTargets`: denied names, and denied addresses and networks. -/
structure InfraTargets (net : NetLib) where
  hosts : List Str
  addrs : net.Addr → Bool

inductive ScreenError where
  /-- `ErrUnresolved` -/
  | unresolved
  | invalidPort
  | reservedPort
  | controlPlane
  | dangerousAddress
  | notPublic
  /-- a socket or file descriptor -/
  | notHostPort
  | noDialTarget
  deriving DecidableEq

/-- A trailing dot does not make another name. -/
def canonicalHost (host : Str) : Str :=
  let host := trimSpace host
  toLower (if host.getLast? = some '.' then host.dropLast else host)

def InfraTargets.blocked (t : InfraTargets net) (host : Str) : Bool :=
  let host := canonicalHost host
  host ≠ [] && (t.hosts.contains host || (net.parseAddr host).any t.addrs)

/-- The admin API port is reserved; port 0 is not dialed yet. -/
def screenPort (port : Int) : Except ScreenError Unit :=
  if port = 0 then .ok ()
  else if port < 0 || 65535 < port then .error .invalidPort
  else if port = 2019 then .error .reservedPort
  else .ok ()

/-- One answer of the resolver. -/
def InfraTargets.screenAddr (t : InfraTargets net) (a : net.Addr) : Except ScreenError Unit :=
  if net.dangerous a then .error .dangerousAddress
  else if t.blocked (net.render a) then .error .controlPlane
  else .ok ()

/-- The lowest text form, so that repeated pushes emit the same address. -/
def lowest (net : NetLib) (a : net.Addr) (addrs : List net.Addr) : Str :=
  addrs.foldl (fun pin b => if net.render b < pin then net.render b else pin) (net.render a)

/-- Every answer is checked before one is picked. -/
def InfraTargets.pinAddrs (t : InfraTargets net) : Option (List net.Addr) → Except ScreenError Str
  | none | some [] => .error .unresolved
  | some (a :: addrs) =>
    match (a :: addrs).forM t.screenAddr with
    | .ok _ => .ok (lowest net a addrs)
    | .error e => .error e

/-- `screenHTTP`: the verdict with the address to dial. -/
def InfraTargets.screenHTTP (t : InfraTargets net) (host : Str) (port : Int) (resolve : Bool) :
    Except ScreenError Str :=
  let host := trimSpace host
  if host = [] then .ok []
  else
    match screenPort port with
    | .error e => .error e
    | .ok _ =>
      if t.blocked host then .error .controlPlane
      else
        match net.parseIP host with
        | some a => if net.dangerous a then .error .dangerousAddress else .ok host
        | none => if resolve then t.pinAddrs (net.lookup host) else .ok host

/-- The last address a name screened to, and whether the entry is fresh. Only addresses get in. -/
abbrev PinCache (net : NetLib) := Str → Int → Option (net.Addr × Bool)

/-- An address that was pinned before is screened again, never trusted. -/
def InfraTargets.rescreen (t : InfraTargets net) (a : net.Addr) (port : Int) :
    Except ScreenError Str :=
  match t.screenHTTP (net.render a) port false with
  | .ok _ => .ok (net.render a)
  | .error e => .error e

/-- `pinHTTPTarget`: a fresh entry saves the lookup, a stale one covers an outage of the
resolver. -/
def InfraTargets.pin (t : InfraTargets net) (cache : PinCache net) (host : Str) (port : Int) :
    Except ScreenError Str :=
  match cache (trimSpace host) port with
  | some (a, true) => t.rescreen a port
  | some (a, false) =>
    match t.screenHTTP host port true with
    | .error .unresolved => t.rescreen a port
    | answer => answer
  | none => t.screenHTTP host port true

/-! ### What passes -/

/-- The text is an address that the deny set accepts. -/
structure InfraTargets.Accepts (t : InfraTargets net) (host : Str) (port : Int) : Prop where
  literal : ∃ a, net.parseIP host = some a ∧ net.dangerous a = false
  notBlocked : t.blocked host = false
  port : screenPort port = .ok ()

variable {t : InfraTargets net}

variable {host addr : Str} {port : Int} {a : net.Addr}

lemma InfraTargets.Accepts.ne_nil (h : t.Accepts host port) : host ≠ [] := by
  rintro rfl
  obtain ⟨a, ha, -⟩ := h.literal
  rw [net.parseIP_nil] at ha
  cases ha

lemma accepts_of_parseIP {resolve : Bool} (hne : trimSpace host ≠ []) (ha : net.parseIP (trimSpace host) = some a)
    (h : t.screenHTTP host port resolve = .ok addr) : addr = trimSpace host ∧ t.Accepts (trimSpace host) port := by
  unfold InfraTargets.screenHTTP at h
  rw [if_neg hne] at h
  cases hport : screenPort port with
  | error e =>
    rw [hport] at h
    cases h
  | ok =>
    simp only [hport, ha] at h
    split at h
    · cases h
    rename_i hblocked
    split at h
    · cases h
    rename_i hdangerous
    cases h
    exact ⟨rfl, ⟨a, ha, Bool.not_eq_true _ ▸ hdangerous⟩, Bool.not_eq_true _ ▸ hblocked, hport⟩

lemma exists_lowest (a : net.Addr) (addrs : List net.Addr) : ∃ b ∈ a :: addrs, lowest net a addrs = net.render b := by
  unfold lowest
  induction addrs generalizing a with
  | nil => exact ⟨a, mem_cons_self, rfl⟩
  | cons b addrs ih =>
    rw [foldl_cons]
    split
    · obtain ⟨c, hc, heq⟩ := ih b
      exact ⟨c, mem_cons_of_mem _ hc, heq⟩
    obtain ⟨c, hc, heq⟩ := ih a
    refine ⟨c, ?_, heq⟩
    rcases mem_cons.mp hc with rfl | hc
    · exact mem_cons_self
    · exact mem_cons_of_mem _ (mem_cons_of_mem _ hc)

lemma accepts_render (h : t.screenAddr a = .ok ())
    (hport : screenPort port = .ok ()) : t.Accepts (net.render a) port := by
  unfold InfraTargets.screenAddr at h
  split at h
  · cases h
  rename_i hdangerous
  split at h
  · cases h
  rename_i hblocked
  exact ⟨⟨a, net.parseIP_render a, Bool.not_eq_true _ ▸ hdangerous⟩,
    Bool.not_eq_true _ ▸ hblocked, hport⟩

lemma accepts_of_pinAddrs {answer : Option (List net.Addr)}
    (hport : screenPort port = .ok ()) (h : t.pinAddrs answer = .ok addr) : t.Accepts addr port := by
  unfold InfraTargets.pinAddrs at h
  split at h
  · cases h
  · cases h
  rename_i a addrs
  split at h
  · rename_i hall
    cases h
    obtain ⟨b, hb, heq⟩ := exists_lowest a addrs
    rw [heq]
    exact accepts_render (Runs.forM_eq_ok hall b hb) hport
  · cases h

/-- A name that is resolved becomes an accepted address. -/
lemma accepts_of_resolve (hne : trimSpace host ≠ [])
    (hname : net.parseIP (trimSpace host) = none) (h : t.screenHTTP host port true = .ok addr) :
    t.Accepts addr port := by
  unfold InfraTargets.screenHTTP at h
  rw [if_neg hne] at h
  cases hport : screenPort port with
  | error e =>
    rw [hport] at h
    cases h
  | ok =>
    simp only [hport, hname] at h
    split at h
    · cases h
    · exact accepts_of_pinAddrs hport h

lemma accepts_of_rescreen (h : t.rescreen a port = .ok addr) : t.Accepts addr port := by
  unfold InfraTargets.rescreen at h
  split at h
  · rename_i answer hscreen
    cases h
    have haccepts := accepts_of_parseIP (a := a)
      (by rw [net.trimSpace_render]; exact NetLib.render_ne_nil a)
      (by rw [net.trimSpace_render]; exact net.parseIP_render a) hscreen
    rw [net.trimSpace_render] at haccepts
    exact haccepts.2
  · cases h

/-- Whatever the resolver answers and the cache holds, a pinned name is an accepted address. -/
theorem accepts_of_pin {cache : PinCache net} (hne : trimSpace host ≠ []) (hname : net.parseIP (trimSpace host) = none)
    (h : t.pin cache host port = .ok addr) : t.Accepts addr port := by
  unfold InfraTargets.pin at h
  split at h
  · exact accepts_of_rescreen h
  · split at h
    · exact accepts_of_rescreen h
    · exact accepts_of_resolve hne hname h
  · exact accepts_of_resolve hne hname h

end Streamguard
