import CaddyPanel.Lib.Expiring
import CaddyPanel.Lib.Text

/-!
# The failure counters of the logins

Wrong passwords, wrong second factors and wrong portal logins are counted in Redis, and a counter at its limit locks
the form. A counter is raised and given its window by two calls. Every call may fail, before or after it took effect,
and no caller looks at the error.
-/

namespace Lockout

open Text
open Expiring (Cell Counter Op Reply)

/-- In seconds. -/
def loginFailWindow : Nat := 15 * 60

def portalFailWindow : Nat := 15 * 60

def loginFailIPLimit : Nat := 10

def twoFAFailLimit : Nat := 10

def portalFailIPLimit : Nat := 10

/-- The keys that `failKeyEmail`, `failKeyEmailIP`, `twoFAFailKey` and `portalFailKey` write. -/
inductive Key where
  | email (email : Str)
  | emailIP (email ip : Str)
  | twoFA (userID : Int)
  | portal (email ip : Str)
  deriving DecidableEq

def Key.window : Key → Nat
  | .portal _ _ => portalFailWindow
  | _ => loginFailWindow

structure Redis where
  now : Nat
  counters : Key → Option Counter

def empty : Redis := ⟨0, fun _ => none⟩

inductive Call where
  | fail (key : Key) (incr expire : Reply)
  | clear (key : Key) (reply : Reply)
  | wait (time : Nat)

def step (s : Redis) : Call → Redis
  | .fail key r r' =>
    { s with counters := Function.update s.counters key (Expiring.bump s.now key.window r r' (s.counters key)) }
  | .clear key r => { s with counters := Function.update s.counters key (Expiring.del r (s.counters key)) }
  | .wait time => { s with now := s.now + time }

def run (s : Redis) (calls : List Call) : Redis :=
  calls.foldl step s

/-! ### The requests -/

structure Replies where
  incr : Reply
  expire : Reply

def recordFail (email ip : Str) (pair single : Replies) : List Call :=
  (if ip ≠ [] then [.fail (.emailIP email ip) pair.incr pair.expire] else []) ++
    [.fail (.email email) single.incr single.expire]

def clearFails (email ip : Str) (single pair : Reply) : List Call :=
  .clear (.email email) single :: if ip ≠ [] then [.clear (.emailIP email ip) pair] else []

def record2FAFail (userID : Int) (r : Replies) : List Call :=
  [.fail (.twoFA userID) r.incr r.expire]

def clear2FAFails (userID : Int) (r : Reply) : List Call :=
  [.clear (.twoFA userID) r]

def recordPortalFail (email ip : Str) (r : Replies) : List Call :=
  if ip = [] then [] else [.fail (.portal email ip) r.incr r.expire]

def clearPortalFails (email ip : Str) (r : Reply) : List Call :=
  if ip = [] then [] else [.clear (.portal email ip) r]

inductive Request where
  | loginFailed (email ip : Str) (pair single : Replies)
  | loginPassed (email ip : Str) (single pair : Reply)
  | codeFailed (userID : Int) (replies : Replies)
  | codePassed (userID : Int) (reply : Reply)
  | portalFailed (email ip : Str) (replies : Replies)
  | portalPassed (email ip : Str) (reply : Reply)
  /-- time passes -/
  | wait (time : Nat)

def Request.calls : Request → List Call
  | .loginFailed email ip pair single => recordFail email ip pair single
  | .loginPassed email ip single pair => clearFails email ip single pair
  | .codeFailed userID r => record2FAFail userID r
  | .codePassed userID r => clear2FAFails userID r
  | .portalFailed email ip r => recordPortalFail email ip r
  | .portalPassed email ip r => clearPortalFails email ip r
  | .wait time => [.wait time]

def serve (requests : List Request) : Redis :=
  run empty (requests.flatMap Request.calls)

/-! ### The locks -/

def locked (s : Redis) (email ip : Str) : Bool :=
  ip ≠ [] && Expiring.locked s.now loginFailIPLimit (s.counters (.emailIP email ip))

def twoFALocked (s : Redis) (userID : Int) : Bool :=
  Expiring.locked s.now twoFAFailLimit (s.counters (.twoFA userID))

def portalLocked (s : Redis) (email ip : Str) : Bool :=
  ip ≠ [] && Expiring.locked s.now portalFailIPLimit (s.counters (.portal email ip))

inductive Lock where
  | password (email ip : Str)
  | twoFA (userID : Int)
  | portal (email ip : Str)

def Lock.holds (s : Redis) : Lock → Bool
  | .password email ip => locked s email ip
  | .twoFA userID => twoFALocked s userID
  | .portal email ip => portalLocked s email ip

def Lock.key : Lock → Key
  | .password email ip => .emailIP email ip
  | .twoFA userID => .twoFA userID
  | .portal email ip => .portal email ip

def Lock.limit : Lock → Nat
  | .password _ _ => loginFailIPLimit
  | .twoFA _ => twoFAFailLimit
  | .portal _ _ => portalFailIPLimit

/-- A lock by address is only for requests whose address is known. -/
def Lock.known : Lock → Bool
  | .password _ ip => ip ≠ []
  | .twoFA _ => true
  | .portal _ ip => ip ≠ []

lemma Lock.holds_eq (s : Redis) (lock : Lock) :
    lock.holds s = (lock.known && Expiring.locked s.now lock.limit (s.counters lock.key)) := by
  cases lock <;> rfl

/-! ### One counter of the store -/

/-- The part of a call that one counter sees. -/
def Call.on (key : Key) : Call → Option Op
  | .fail key' r r' => if key' = key then some (.bump r r') else none
  | .clear key' r => if key' = key then some (.del r) else none
  | .wait time => some (.wait time)

/-- The calls that the requests make for one counter, and the time between them. -/
def callsFor (key : Key) (requests : List Request) : List Op :=
  (requests.flatMap Request.calls).filterMap (Call.on key)

def Redis.cell (s : Redis) (key : Key) : Cell :=
  ⟨s.now, s.counters key⟩

lemma step_cell (s : Redis) (call : Call) (key : Key) :
    (step s call).cell key = (call.on key).elim (s.cell key) (Expiring.apply key.window (s.cell key)) := by
  cases call with
  | fail key' r r' =>
    by_cases h : key' = key
    · subst h
      simp [step, Call.on, Redis.cell, Expiring.apply]
    · simp [step, Call.on, Redis.cell, h, Function.update_of_ne (Ne.symm h)]
  | clear key' r =>
    by_cases h : key' = key
    · subst h
      simp [step, Call.on, Redis.cell, Expiring.apply]
    · simp [step, Call.on, Redis.cell, h, Function.update_of_ne (Ne.symm h)]
  | wait time => rfl

/-- Each counter goes its own way through the calls made for it. -/
lemma run_cell (s : Redis) (calls : List Call) (key : Key) :
    (run s calls).cell key = Expiring.run key.window (s.cell key) (calls.filterMap (Call.on key)) := by
  induction calls generalizing s with
  | nil => rfl
  | cons call calls ih =>
    change (run (step s call) calls).cell key = _
    rw [ih, step_cell]
    cases h : call.on key with
    | none => rw [List.filterMap_cons_none h]; rfl
    | some op => rw [List.filterMap_cons_some h]; rfl

lemma serve_cell (requests : List Request) (key : Key) :
    (serve requests).cell key = Expiring.run key.window ⟨0, none⟩ (callsFor key requests) :=
  run_cell empty _ key

lemma serve_wait (requests : List Request) (time : Nat) :
    serve (requests ++ [.wait time]) = { serve requests with now := (serve requests).now + time } := by
  simp [serve, run, Request.calls, step]

/-- The window of every lock ends it, unless a counter was created without its expiry and then came to its limit. -/
theorem locks_end_iff_counters_expire (requests : List Request) :
    (∀ lock : Lock, ∀ time, lock.key.window ≤ time → lock.holds (serve (requests ++ [.wait time])) = false) ↔
      ∀ lock : Lock, lock.known → ¬ Expiring.Endless lock.key.window lock.limit (callsFor lock.key requests) := by
  refine forall_congr' fun lock => ?_
  rw [← Expiring.locks_end_iff_not_endless, ← serve_cell]
  simp only [serve_wait, Lock.holds_eq, Bool.and_eq_false_imp]
  constructor
  · intro h hknown t ht
    obtain ⟨time, rfl⟩ := Nat.exists_eq_add_of_le (Nat.le_trans (Nat.le_add_right _ _) ht)
    exact h time (Nat.le_of_add_le_add_left ht) hknown
  · intro h time htime hknown
    exact h hknown _ (Nat.add_le_add_left htime _)

/-- A user for whom the first call for the expiry failed. -/
def unexpired : List Request :=
  .codeFailed 7 ⟨.ok, .failed⟩ :: List.replicate 9 (.codeFailed 7 ⟨.ok, .ok⟩)

/-- One failed call, and the tenth wrong code locks the user out for ever. -/
theorem twoFA_locked_for_ever : ¬ ∃ time, twoFALocked (serve (unexpired ++ [.wait time])) 7 = false := by
  rintro ⟨time, h⟩
  have hcounter : (serve unexpired).counters (.twoFA 7) = some ⟨10, none⟩ := by decide +kernel
  cases h

end Lockout
