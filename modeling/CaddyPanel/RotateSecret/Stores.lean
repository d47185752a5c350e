import CaddyPanel.Lib.Rekey
import CaddyPanel.Lib.Text

/-!
# What `rotate-secret` re-encrypts (`cmd/rotate-secret/main.go`)

The encrypted columns of the database and the two encrypted fields of the state file. A stored value is legacy
ciphertext, or an envelope `v2:<purpose>:<ciphertext>` under a key that is derived for the purpose. The cipher is
taken as ideal: a ciphertext opens under the key it was sealed with and under no other.
-/

namespace RotateSecret

open List Option
open Text (Str)

/-- AES-GCM in base64, and the derivation of the key for a purpose. -/
structure Cipher where
  Key : Type
  Nonce : Type
  encrypt : Key → Nonce → Str → Str
  decrypt : Key → Str → Option Str
  purposeKey : Key → Str → Key
  decrypt_encrypt : ∀ k n pt, decrypt k (encrypt k n pt) = some pt
  decrypt_encrypt_ne : ∀ k k' n pt, k' ≠ k → decrypt k' (encrypt k n pt) = none
  purposeKey_ne : ∀ purpose k k', k' ≠ k → purposeKey k' purpose ≠ purposeKey k purpose
  not_mem_encrypt : ∀ k n pt, ':' ∉ encrypt k n pt
  encrypt_ne_nil : ∀ k n pt, encrypt k n pt ≠ []

/-- A purpose as it stands between the colons of an envelope; the empty one is legacy ciphertext. -/
abbrev Purpose := { p : Str // ':' ∉ p }

abbrev Payload := Purpose × Str

def v2Mark : Str := "v2:"

/-- `strings.Cut` at the first colon. -/
def cutColon (s : Str) : Option (Purpose × Str) :=
  if ':' ∈ s then
    some (⟨s.takeWhile (· ≠ ':'), fun h => by simpa using mem_takeWhile_imp h⟩, (s.dropWhile (· ≠ ':')).drop 1)
  else none

variable (C : Cipher)

def decEnvelope (k : C.Key) (stored : Str) : Option Payload :=
  if v2Mark <+: stored then
    match cutColon (stored.drop v2Mark.length) with
    | some (purpose, payload) =>
      if purpose.1 = [] then none
      else (C.decrypt (C.purposeKey k purpose.1) payload).map fun pt => (purpose, pt)
    | none => none
  else (C.decrypt k stored).map fun pt => (⟨[], by simp⟩, pt)

def encEnvelope (k : C.Key) (n : C.Nonce) (p : Payload) : Str :=
  if p.1.1 = [] then C.encrypt k n p.2
  else v2Mark ++ (p.1.1 ++ ':' :: C.encrypt (C.purposeKey k p.1.1) n p.2)

/-! ### Columns -/

structure EncColumn where
  table : String
  idCol : String
  col : String
  /-- a condition on the row -/
  filter : String
  /-- stands before the ciphertext; what does not begin with it is no ciphertext -/
  mark : String
  /-- legacy plaintext is left alone -/
  tolerant : Bool
  deriving DecidableEq

def encColumns : List EncColumn :=
  [⟨"routes", "id", "proxy_secret_enc", "", "", false⟩,
    ⟨"backup_destinations", "id", "config_enc", "", "enc:", false⟩,
    ⟨"dns_providers", "id", "api_token_enc", "", "", false⟩,
    ⟨"webhook_endpoints", "id", "secret_enc", "", "", false⟩,
    ⟨"oauth_providers", "provider", "client_secret", "is_encrypted = 1", "", false⟩,
    ⟨"sync_slaves", "id", "token_enc", "", "", false⟩,
    ⟨"customer_wg_peer", "id", "server_privkey_e2", "", "", false⟩,
    ⟨"mtls_cas", "id", "key_pem_enc", "", "", false⟩,
    ⟨"manual_certs", "id", "key_pem_enc", "", "", false⟩,
    ⟨"routes", "id", "lb_cookie_secret", "", "", true⟩,
    ⟨"caddy_nodes", "id", "tunnel_privkey_e2", "", "", false⟩,
    ⟨"caddy_nodes", "id", "admin_proxy_key_enc", "", "", false⟩,
    ⟨"caddy_nodes", "id", "wg_psk_enc", "", "", false⟩,
    ⟨"caddy_nodes", "id", "wg_psk_pending_enc", "", "", false⟩,
    ⟨"caddy_nodes", "id", "wg_psk_token_enc", "", "", false⟩,
    ⟨"customer_wg_peer", "id", "psk_enc", "", "", false⟩]

/-- The settings and the TOTP secrets have loops of their own, which do the same. -/
def rotatedColumns : List EncColumn :=
  ⟨"settings", "key", "value", "is_encrypted = 1", "", false⟩ ::
    ⟨"users", "id", "totp_secret_enc", "", "", false⟩ :: encColumns

/-- A value of one of the columns that the database has; `selected` says that its row meets the filter. -/
structure Cell where
  column : { c : EncColumn // c ∈ rotatedColumns }
  id : Str
  selected : Bool
  value : Option Str

/-- The ciphertext of the cell, if the loop over the column comes to one. -/
def Cell.stored (cell : Cell) : Option Str :=
  let mark := cell.column.1.mark.toList
  cell.value.bind fun v =>
    if v ≠ [] ∧ cell.selected ∧ mark <+: v then some (v.drop mark.length) else none

def Cell.read (k : C.Key) (cell : Cell) : Rekey.Reading Payload :=
  match cell.stored with
  | none => .skip
  | some stored =>
    match decEnvelope C k stored with
    | some p => .opened p
    | none => if cell.column.1.tolerant then .skip else .refused

/-- Where the value stands. -/
def Cell.place (cell : Cell) : EncColumn × Str × Bool :=
  (cell.column.1, cell.id, cell.selected)

def Cell.write (k : C.Key) (n : C.Nonce) (p : Payload) (cell : Cell) : Cell :=
  { cell with value := some (cell.column.1.mark.toList ++ encEnvelope C k n p) }

/-! ### The state file -/

/-- `db.password_cipher` and `smtp.password_cipher`, where they are strings. -/
structure StateFile where
  dbPassword : Option Str
  smtpPassword : Option Str
  deriving DecidableEq

def StateFile.fields (f : StateFile) : List (Option Str) :=
  [f.dbPassword, f.smtpPassword]

def readField (k : C.Key) : Option Str → Rekey.Reading Str
  | none => .skip
  | some [] => .skip
  | some v =>
    match C.decrypt k v with
    | some pt => .opened pt
    | none => .refused

variable {C}

/-! ### Envelopes -/

lemma cutColon_append (purpose : Purpose) (payload : Str) :
    cutColon (purpose.1 ++ ':' :: payload) = some (purpose, payload) := by
  have hall : ∀ c ∈ purpose.1, decide (c ≠ ':') := by
    intro c hc
    simpa using fun heq : c = ':' => purpose.2 (heq ▸ hc)
  have htake : (purpose.1 ++ ':' :: payload).takeWhile (· ≠ ':') = purpose.1 := by
    rw [takeWhile_append_of_pos hall]
    simp
  have hdrop : (purpose.1 ++ ':' :: payload).dropWhile (· ≠ ':') = ':' :: payload := by
    rw [dropWhile_append_of_pos hall]
    simp
  simp only [cutColon, mem_append, mem_cons, true_or, or_true, if_true, hdrop, drop_one,
    tail_cons, Option.some.injEq, Prod.mk.injEq, and_true]
  exact Subtype.ext htake

lemma not_v2Mark_encrypt (k : C.Key) (n : C.Nonce) (pt : Str) : ¬ v2Mark <+: C.encrypt k n pt := by
  intro h
  exact C.not_mem_encrypt k n pt (h.subset (by decide))

lemma decEnvelope_v2 (k : C.Key) {purpose : Purpose} (hpurpose : purpose.1 ≠ []) (payload : Str) :
    decEnvelope C k (v2Mark ++ (purpose.1 ++ ':' :: payload)) =
      (C.decrypt (C.purposeKey k purpose.1) payload).map fun pt => (purpose, pt) := by
  rw [decEnvelope, if_pos (prefix_append _ _), drop_left, cutColon_append]
  simp only [hpurpose, if_false]

lemma decEnvelope_encEnvelope (k : C.Key) (n : C.Nonce) (p : Payload) :
    decEnvelope C k (encEnvelope C k n p) = some p := by
  obtain ⟨purpose, pt⟩ := p
  unfold encEnvelope
  split
  · next hpurpose =>
    have hnil : purpose = ⟨[], by simp⟩ := Subtype.ext hpurpose
    rw [decEnvelope, if_neg (not_v2Mark_encrypt k n pt), C.decrypt_encrypt, map_some, hnil]
  · next hpurpose => rw [decEnvelope_v2 k hpurpose, C.decrypt_encrypt, map_some]

lemma decEnvelope_encEnvelope_ne {k k' : C.Key} (hk : k' ≠ k) (n : C.Nonce) (p : Payload) :
    decEnvelope C k' (encEnvelope C k n p) = none := by
  obtain ⟨purpose, pt⟩ := p
  unfold encEnvelope
  split
  · rw [decEnvelope, if_neg (not_v2Mark_encrypt k n pt), C.decrypt_encrypt_ne k k' n pt hk, map_none]
  rename_i hpurpose
  have hsub := C.purposeKey_ne purpose.1 k k' hk
  rw [decEnvelope_v2 k' hpurpose, C.decrypt_encrypt_ne _ _ n pt hsub, map_none]

lemma encEnvelope_ne_nil (k : C.Key) (n : C.Nonce) (p : Payload) : encEnvelope C k n p ≠ [] := by
  unfold encEnvelope
  split
  · exact C.encrypt_ne_nil _ _ _
  · simp

/-! ### Codecs -/

variable {cell cell' : Cell} {ns : ℕ → C.Nonce}

lemma stored_write {stored : Str} (h : cell.stored = some stored) (k : C.Key) (n : C.Nonce)
    (p : Payload) : (cell.write C k n p).stored = some (encEnvelope C k n p) := by
  obtain ⟨v, -, hv⟩ := bind_eq_some_iff.mp h
  split at hv
  · next hcond =>
    simp [Cell.stored, Cell.write, encEnvelope_ne_nil, hcond.2.1]
  · cases hv

lemma stored_of_read {k : C.Key} {p : Payload} (h : cell.read C k = .opened p) :
    ∃ stored, cell.stored = some stored := by
  cases hstored : cell.stored with
  | none => simp [Cell.read, hstored] at h
  | some stored => exact ⟨stored, rfl⟩

/-- What is written is the new envelope, or stands in a row that is not selected. -/
lemma stored_write_eq (k : C.Key) (n : C.Nonce) (p : Payload) (cell : Cell) :
    (cell.write C k n p).stored = none ∨ (cell.write C k n p).stored = some (encEnvelope C k n p) := by
  cases hselected : cell.selected with
  | false => simp [Cell.stored, Cell.write, hselected]
  | true => simp [Cell.stored, Cell.write, encEnvelope_ne_nil]

variable (C)

/-- A cell of the database. -/
def cellCodec : Rekey.Codec Cell C.Key C.Nonce Payload where
  read k cell := cell.read C k
  write k n p cell := cell.write C k n p
  read_write k₀ p₀ cell h k n p := by
    obtain ⟨stored, hstored⟩ := stored_of_read h
    simp only [Cell.read, stored_write hstored, decEnvelope_encEnvelope]
  read_write_ne k k' n p p' cell hk := by
    obtain h | h := stored_write_eq k n p cell
    · simp [Cell.read, h]
    · simp only [Cell.read, h, decEnvelope_encEnvelope_ne hk]
      split <;> simp
  read_of_skip k k' cell h := by
    cases hstored : cell.stored with
    | none => simp [Cell.read, hstored]
    | some stored =>
      simp only [Cell.read, hstored] at h ⊢
      split at h
      · cases h
      split at h
      · next htolerant =>
        simp only [htolerant, if_true]
        split <;> simp
      · cases h

/-- A field of the state file. -/
def fieldCodec : Rekey.Codec (Option Str) C.Key C.Nonce Str where
  read := readField C
  write k n pt _ := some (C.encrypt k n pt)
  read_write k₀ p₀ v h k n pt := by
    have hne := C.encrypt_ne_nil k n pt
    cases hct : C.encrypt k n pt with
    | nil => exact absurd hct hne
    | cons c cs => simp only [readField, ← hct, C.decrypt_encrypt]
  read_write_ne k k' n pt pt' v hk := by
    have hne := C.encrypt_ne_nil k n pt
    cases hct : C.encrypt k n pt with
    | nil => exact absurd hct hne
    | cons c cs => simp [readField, ← hct, C.decrypt_encrypt_ne k k' n pt hk]
  read_of_skip k k' v h := by
    match v with
    | none => simp [readField]
    | some [] => simp [readField]
    | some (c :: cs) =>
      simp only [readField] at h
      split at h <;> cases h

/-! ### Rotation -/

/-- The database: the cells of the encrypted columns, and two columns that are only cleared. -/
structure DB where
  cells : List Cell
  /-- `users.totp_pending_secret` -/
  totpPending : List (ℕ × Option Str)
  /-- `api_keys.key_hmac` -/
  keyHmac : List (ℕ × Option Str)

def cleared (column : List (ℕ × Option Str)) : List (ℕ × Option Str) :=
  column.map fun row => (row.1, none)

/-- `rotateDB` with `apply`; the transaction commits only if every cell can be read. -/
def rotateDB (k k' : C.Key) (ns : ℕ → C.Nonce) (db : DB) : Option DB :=
  ((cellCodec C).rekeyAll k k' ns db.cells).map fun cells =>
    { cells, totpPending := cleared db.totpPending, keyHmac := cleared db.keyHmac }

/-- `rotateDB` without `apply`. -/
def checkDB (k : C.Key) (db : DB) : Bool :=
  decide ((cellCodec C).Opens k db.cells)

def rotateStateFile (k k' : C.Key) (ns : ℕ → C.Nonce) (f : StateFile) : Option StateFile :=
  match (fieldCodec C).rekeyAll k k' ns f.fields with
  | some [dbPassword, smtpPassword] => some ⟨dbPassword, smtpPassword⟩
  | _ => none

def checkStateFile (k : C.Key) (f : StateFile) : Bool :=
  decide ((fieldCodec C).Opens k f.fields)

/-- The database after a rotation of `db`. -/
structure DbRotated (k k' : C.Key) (db db' : DB) : Prop where
  cells : List.Forall₂ ((cellCodec C).Rekeyed k k') db.cells db'.cells
  totpPending : db'.totpPending = cleared db.totpPending
  keyHmac : db'.keyHmac = cleared db.keyHmac

def FileRotated (k k' : C.Key) (f f' : StateFile) : Prop :=
  List.Forall₂ ((fieldCodec C).Rekeyed k k') f.fields f'.fields

variable {C} {k k' : C.Key} {db db' db'' : DB} {f f' : StateFile}

@[simp] lemma cleared_cleared (column : List (ℕ × Option Str)) : cleared (cleared column) = cleared column := by
  simp [cleared]

lemma exists_rotateDB (h : checkDB C k db) (k' : C.Key) (ns : ℕ → C.Nonce) :
    ∃ db', rotateDB C k k' ns db = some db' := by
  obtain ⟨cells, hcells⟩ := Rekey.Codec.exists_rekeyAll (of_decide_eq_true h) k' ns
  exact ⟨_, by rw [rotateDB, hcells, map_some]⟩

lemma dbRotated_of_rotateDB (h : rotateDB C k k' ns db = some db') : DbRotated C k k' db db' := by
  obtain ⟨cells, hcells, rfl⟩ := map_eq_some_iff.mp h
  exact ⟨Rekey.Codec.rekeyed_of_rekeyAll hcells, rfl, rfl⟩

/-- A second rotation of a database that was rotated is none. -/
lemma DbRotated.rotateDB (hk : k ≠ k') (hdb : DbRotated C k k' db db')
    (h : rotateDB C k k' ns db' = some db'') : DbRotated C k k' db db'' := by
  obtain ⟨cells, hcells, rfl⟩ := map_eq_some_iff.mp h
  have hsame : cells = db'.cells := Rekey.Codec.rekeyAll_of_rekeyed hk hdb.cells hcells
  refine ⟨hsame ▸ hdb.cells, ?_, ?_⟩
  · rw [hdb.totpPending, cleared_cleared]
  · rw [hdb.keyHmac, cleared_cleared]

lemma DbRotated.checkDB (hdb : DbRotated C k k' db db') (h : checkDB C k db) : checkDB C k' db' = true :=
  decide_eq_true (Rekey.Codec.opens_of_rekeyed (of_decide_eq_true h) hdb.cells)

lemma place_of_rekeyed (h : (cellCodec C).Rekeyed k k' cell cell') : cell'.place = cell.place := by
  unfold Rekey.Codec.Rekeyed at h
  split at h
  · obtain ⟨n, rfl⟩ := h
    rfl
  · rw [h]

lemma rotateStateFile_eq_some :
    rotateStateFile C k k' ns f = some f' ↔ (fieldCodec C).rekeyAll k k' ns f.fields = some f'.fields := by
  unfold rotateStateFile
  constructor
  · intro h
    split at h
    · next heq =>
      cases h
      exact heq
    · cases h
  · intro h
    rw [h]
    rfl

lemma exists_rotateStateFile (h : checkStateFile C k f) (k' : C.Key) (ns : ℕ → C.Nonce) :
    ∃ f', rotateStateFile C k k' ns f = some f' := by
  obtain ⟨fields, hfields⟩ := Rekey.Codec.exists_rekeyAll (of_decide_eq_true h) k' ns
  have hlength := (Rekey.Codec.rekeyed_of_rekeyAll hfields).length_eq
  match fields, hlength with
  | [dbPassword, smtpPassword], _ => exact ⟨⟨dbPassword, smtpPassword⟩, rotateStateFile_eq_some.mpr hfields⟩

lemma FileRotated.checkStateFile (hf : FileRotated C k k' f f') (h : checkStateFile C k f) :
    checkStateFile C k' f' = true :=
  decide_eq_true (Rekey.Codec.opens_of_rekeyed (of_decide_eq_true h) hf)

/-- A rotated file that still opens under the first key has no encrypted field. -/
lemma FileRotated.eq_of_checkStateFile (hk : k ≠ k') (hf : FileRotated C k k' f f')
    (h : RotateSecret.checkStateFile C k f' = true) : f' = f := by
  have hstrict : ∀ k' n p b, (fieldCodec C).read k b = .opened p →
      (fieldCodec C).read k ((fieldCodec C).write k' n p b) ≠ .skip := by
    intro k' n p b _
    have hne := C.encrypt_ne_nil k' n p
    simp only [fieldCodec]
    cases hct : C.encrypt k' n p with
    | nil => exact absurd hct hne
    | cons c cs =>
      simp only [readField]
      split <;> simp
  have hfields := Rekey.Codec.eq_of_opens hk hstrict hf (of_decide_eq_true h)
  obtain ⟨dbPassword, smtpPassword⟩ := f
  obtain ⟨dbPassword', smtpPassword'⟩ := f'
  simpa [StateFile.fields] using hfields

end RotateSecret
