/-
  Encryption with keys from the secret manager, and the rotation of its keys.

  The state is the process environment, where the secret manager keeps its secrets. The
  `cryptography` package is a parameter: a `Fernet` decrypts what it encrypted itself, and
  rejects what another key encrypted.

  * `Rotated`: what the protocol of `rotate_key` leaves in the environment.
  * `Kept`: where a key is after some rotations, with no gap before it.
  * `decrypt_after_rotations`: a token is readable through ten rotations.
-/
import AgentCorp.Lib.FirstDecision
import AgentCorp.Lib.InTurn
import AgentCorp.Python.Effects
import AgentCorp.Python.Text
import Mathlib.Logic.Function.Basic

namespace AgentCorp.Security

open AgentCorp.Python

/-! ## The secret manager -/

/-- `os.environ`. -/
abbrev Environ := String → Option String

def Environ.set (env : Environ) (name value : String) : Environ :=
  Function.update env name (some value)

/-- `name.upper()` of an ASCII name. -/
def asciiUpper (name : String) : String :=
  String.ofList (name.toList.map Char.toUpper)

/-- The variable of a secret. -/
def secretVariable (name : String) : String :=
  "AGENTCORP_SECRET_" ++ asciiUpper name

def getSecret (name : String) (env : Environ) : Option String :=
  env (secretVariable name)

/-! ## The cryptography package -/

/-- Fernet. Its keys and tokens are bytes of ASCII texts. -/
structure Fernet (Key Seed : Type) where
  /-- `Fernet(key)`. `none` is a `ValueError`. -/
  ofKey : ByteArray → Option Key
  generateKey : Seed → ByteArray
  encrypt : Key → Seed → ByteArray → ByteArray
  /-- `none` is an `InvalidToken`. -/
  decrypt : Key → ByteArray → Option ByteArray
  generateKey_text : ∀ seed, ∃ text : String, text ≠ "" ∧ text.toUTF8 = generateKey seed
  ofKey_generateKey : ∀ seed, (ofKey (generateKey seed)).isSome
  encrypt_text : ∀ key seed data, ∃ text : String, text.toUTF8 = encrypt key seed data
  decrypt_encrypt : ∀ key seed data, decrypt key (encrypt key seed data) = some data
  decrypt_other : ∀ key other seed data, other ≠ key →
    decrypt other (encrypt key seed data) = none

/-- `bytes.decode()`. -/
def decodeUtf8 (bytes : ByteArray) : Except Exn String :=
  match String.fromUTF8? bytes with
  | some text => .ok text
  | none => .error (.other "UnicodeDecodeError" "'utf-8' codec can't decode bytes")

theorem fromUTF8?_toUTF8 (text : String) : String.fromUTF8? text.toUTF8 = some text := by
  unfold String.fromUTF8?
  rw [String.toUTF8_eq_toByteArray, dif_pos text.isValidUTF8]
  rfl

theorem decodeUtf8_toUTF8 (text : String) : decodeUtf8 text.toUTF8 = .ok text := by
  unfold decodeUtf8
  rw [fromUTF8?_toUTF8]

/-! ## Keys and their slots -/

/-- The secret of each key: the primary one, and those that rotations have moved down. -/
def slot : Nat → String
  | 0 => "ENCRYPTION_KEY"
  | i + 1 => "ENCRYPTION_KEY_" ++ toString (i + 1)

/-- The key text in a slot. An empty one counts as none. -/
def keyText (i : Nat) (env : Environ) : Option String :=
  (getSecret (slot i) env).filter (· ≠ "")

section Encryption

variable {Key Seed : Type} (fernet : Fernet Key Seed)

/-- `_load_primary_key`. It generates and stores a key if there is none. -/
def loadPrimaryKey (seed : Seed) : Py Environ ByteArray := do
  match keyText 0 (← get) with
  | none =>
      let generated := fernet.generateKey seed
      let text ← Py.ofResult (decodeUtf8 generated)
      modify (·.set "AGENTCORP_SECRET_ENCRYPTION_KEY" text)
      return generated
  | some raw => return raw.toUTF8

/-- The keys in some slots, up to the first slot without one. -/
def rotatedKeys (env : Environ) : List Nat → List ByteArray
  | [] => []
  | i :: slots =>
      match keyText i env with
      | none => []
      | some raw => raw.toUTF8 :: rotatedKeys env slots

/-- `_load_all_keys`. -/
def loadAllKeys (seed : Seed) : Py Environ (List ByteArray) := do
  let primary ← loadPrimaryKey fernet seed
  return primary :: rotatedKeys (← get) (List.range' 1 10)

/-- `Fernet(key)`. -/
def toFernet (key : ByteArray) : Except Exn Key :=
  match fernet.ofKey key with
  | some k => .ok k
  | none => .error (.valueError "Fernet key must be 32 url-safe base64-encoded bytes.")

/-- `MultiFernet.decrypt`: the keys are tried in their order. -/
def multiDecrypt (keys : List Key) (token : ByteArray) : Except Exn ByteArray :=
  match keys.findSome? (fernet.decrypt · token) with
  | some data => .ok data
  | none => .error (.other "InvalidToken" "")

def encrypt (value : String) (keySeed seed : Seed) : Py Environ String := do
  let raw ← loadPrimaryKey fernet keySeed
  let key ← Py.ofResult (toFernet fernet raw)
  Py.ofResult (decodeUtf8 (fernet.encrypt key seed value.toUTF8))

/-- Decryption with the keys that are loaded. -/
def decryptWith (raws : List ByteArray) (token : String) : Except Exn String := do
  let keys ← raws.mapM (toFernet fernet)
  let data ← multiDecrypt fernet keys token.toUTF8
  decodeUtf8 data

def decrypt (token : String) (keySeed : Seed) : Py Environ String := do
  let raws ← loadAllKeys fernet keySeed
  Py.ofResult (decryptWith fernet raws token)

def rotateKey (seed : Seed) : Except Exn String :=
  decodeUtf8 (fernet.generateKey seed)

/-! ## What loading leaves -/

/-- The text of a generated key. -/
def generatedText (seed : Seed) : String :=
  (String.fromUTF8? (fernet.generateKey seed)).getD ""

theorem generatedText_toUTF8 (seed : Seed) :
    (generatedText fernet seed).toUTF8 = fernet.generateKey seed := by
  obtain ⟨text, -, htext⟩ := fernet.generateKey_text seed
  unfold generatedText
  rw [← htext, fromUTF8?_toUTF8]
  rfl

theorem generatedText_ne (seed : Seed) : generatedText fernet seed ≠ "" := by
  obtain ⟨text, hne, htext⟩ := fernet.generateKey_text seed
  unfold generatedText
  rw [← htext, fromUTF8?_toUTF8]
  exact hne

theorem rotateKey_eq (seed : Seed) : rotateKey fernet seed = .ok (generatedText fernet seed) := by
  unfold rotateKey
  rw [← generatedText_toUTF8, decodeUtf8_toUTF8]

/-- The primary key once it is loaded. -/
def primaryText (seed : Seed) (env : Environ) : String :=
  (keyText 0 env).getD (generatedText fernet seed)

/-- The environment once the primary key is loaded. -/
def settled (seed : Seed) (env : Environ) : Environ :=
  match keyText 0 env with
  | none => env.set (secretVariable (slot 0)) (generatedText fernet seed)
  | some _ => env

theorem run_loadPrimaryKey (seed : Seed) (env : Environ) :
    (loadPrimaryKey fernet seed).run env =
      .ok (primaryText fernet seed env).toUTF8 (settled fernet seed env) := by
  have hget : (loadPrimaryKey fernet seed).run env =
      (match keyText 0 env with
      | none => do
          let text ← Py.ofResult (decodeUtf8 (fernet.generateKey seed))
          modify (·.set "AGENTCORP_SECRET_ENCRYPTION_KEY" text)
          return fernet.generateKey seed
      | some raw => return raw.toUTF8 : Py Environ ByteArray).run env := rfl
  rw [hget]
  unfold primaryText settled
  cases keyText 0 env with
  | none =>
      have hname : secretVariable (slot 0) = "AGENTCORP_SECRET_ENCRYPTION_KEY" := by decide
      rw [hname, ← generatedText_toUTF8, decodeUtf8_toUTF8, Py.ofResult_ok_bind]
      rfl
  | some raw => rfl

/-! ## Slots are distinct -/

theorem toUpper_of_isDigit {c : Char} (h : c.isDigit = true) : c.toUpper = c := by
  have hbounds : 48 ≤ c.val.toNat ∧ c.val.toNat ≤ 57 := by
    simpa [Char.isDigit, UInt32.le_iff_toNat_le] using h
  unfold Char.toUpper
  rw [dif_neg]
  intro hlower
  simp only [UInt32.le_iff_toNat_le] at hlower
  have ha : 'a'.val.toNat = 97 := rfl
  omega

/-- Upper-casing keeps the name of a slot as it is. -/
theorem asciiUpper_slot (i : Nat) : asciiUpper (slot i) = slot i := by
  cases i with
  | zero => decide
  | succ i =>
      have hdigits : (toString (i + 1)).toList.map Char.toUpper = (toString (i + 1)).toList := by
        refine (List.map_congr_left fun c hc => ?_).trans (List.map_id _)
        have hdigit : c ∈ Nat.toDigits 10 (i + 1) := by
          simpa only [Nat.toList_repr, toString] using hc
        exact toUpper_of_isDigit (Nat.isDigit_of_mem_toDigits (by omega) (by omega) hdigit)
      apply String.toList_inj.mp
      unfold asciiUpper slot
      rw [String.toList_ofList, String.toList_append, List.map_append, hdigits]
      rfl

/-- An old key has a longer name than the primary one. -/
theorem slot_zero_ne (i : Nat) : slot 0 ≠ slot (i + 1) := by
  intro heq
  have hlength : (slot (i + 1)).length = (slot 0).length + 1 + (toString (i + 1)).length := by
    unfold slot
    rw [String.length_append]
    rfl
  rw [heq] at hlength
  omega

theorem secretVariable_slot_inj {i j : Nat}
    (h : secretVariable (slot i) = secretVariable (slot j)) : i = j := by
  unfold secretVariable at h
  rw [asciiUpper_slot, asciiUpper_slot] at h
  have hslots : slot i = slot j := by
    apply String.toList_inj.mp
    simpa only [String.toList_append, List.append_cancel_left_eq] using congrArg String.toList h
  cases i with
  | zero =>
      cases j with
      | zero => rfl
      | succ j => exact absurd hslots (slot_zero_ne j)
  | succ i =>
      cases j with
      | zero => exact absurd hslots.symm (slot_zero_ne i)
      | succ j =>
          unfold slot at hslots
          have hnumbers := congrArg String.toList ((String.append_right_inj _).mp hslots)
          exact toString_nat_inj hnumbers

/-! ## The environment once a key is loaded -/

@[simp] theorem getSecret_set_self (i : Nat) (env : Environ) (text : String) :
    getSecret (slot i) (env.set (secretVariable (slot i)) text) = some text := by
  unfold getSecret Environ.set
  rw [Function.update_self]

theorem getSecret_set_of_ne {i j : Nat} (h : i ≠ j) (env : Environ) (text : String) :
    getSecret (slot i) (env.set (secretVariable (slot j)) text) = getSecret (slot i) env := by
  have hname : secretVariable (slot i) ≠ secretVariable (slot j) :=
    fun heq => h (secretVariable_slot_inj heq)
  unfold getSecret Environ.set
  rw [Function.update_of_ne hname]

theorem keyText_of_getSecret {i : Nat} {env : Environ} {text : String}
    (h : getSecret (slot i) env = some text) (hne : text ≠ "") : keyText i env = some text := by
  unfold keyText
  rw [h, Option.filter_some, if_pos (decide_eq_true hne)]

/-- Loading fills the primary slot. -/
theorem keyText_settled (seed : Seed) (env : Environ) :
    keyText 0 (settled fernet seed env) = some (primaryText fernet seed env) := by
  unfold settled primaryText
  cases h : keyText 0 env with
  | none =>
      have hset := getSecret_set_self 0 env (generatedText fernet seed)
      exact keyText_of_getSecret hset (generatedText_ne fernet seed)
  | some raw => exact h

/-- A filled primary slot stays as it is. -/
theorem settled_of_some {seed : Seed} {env : Environ} {raw : String}
    (h : keyText 0 env = some raw) :
    settled fernet seed env = env := by
  unfold settled
  rw [h]

theorem keyText_succ_settled (i : Nat) (seed : Seed) (env : Environ) :
    keyText (i + 1) (settled fernet seed env) = keyText (i + 1) env := by
  unfold settled
  cases h : keyText 0 env with
  | none =>
      unfold keyText
      rw [getSecret_set_of_ne (Nat.succ_ne_zero i)]
  | some raw => rfl

/-- Every key in the slots is one that `Fernet` takes. -/
def ValidKeys (env : Environ) : Prop :=
  ∀ i ≤ 10, ∀ raw, keyText i env = some raw → (fernet.ofKey raw.toUTF8).isSome

theorem isSome_ofKey_generatedText (seed : Seed) :
    (fernet.ofKey (generatedText fernet seed).toUTF8).isSome := by
  rw [generatedText_toUTF8]
  exact fernet.ofKey_generateKey seed

theorem isSome_ofKey_primaryText {env : Environ} (h : ValidKeys fernet env) (seed : Seed) :
    (fernet.ofKey (primaryText fernet seed env).toUTF8).isSome := by
  unfold primaryText
  cases hkey : keyText 0 env with
  | none => exact isSome_ofKey_generatedText fernet seed
  | some raw => exact h 0 (by omega) raw hkey

theorem ValidKeys.settled {env : Environ} (h : ValidKeys fernet env) (seed : Seed) :
    ValidKeys fernet (settled fernet seed env) := by
  intro i hi raw hraw
  cases i with
  | zero =>
      rw [keyText_settled] at hraw
      obtain rfl := Option.some.inj hraw
      exact isSome_ofKey_primaryText fernet h seed
  | succ i =>
      rw [keyText_succ_settled] at hraw
      exact h (i + 1) hi raw hraw

/-! ## Encrypting and decrypting -/

theorem toFernet_of_ofKey {bytes : ByteArray} {key : Key} (h : fernet.ofKey bytes = some key) :
    toFernet fernet bytes = .ok key := by
  unfold toFernet
  rw [h]

/-- A token is that of the primary key. -/
theorem run_encrypt {env : Environ} (value : String) {keySeed : Seed} (seed : Seed) {key : Key}
    (h : fernet.ofKey (primaryText fernet keySeed env).toUTF8 = some key) :
    ∃ token : String, token.toUTF8 = fernet.encrypt key seed value.toUTF8 ∧
      (encrypt fernet value keySeed seed).run env = .ok token (settled fernet keySeed env) := by
  obtain ⟨token, htoken⟩ := fernet.encrypt_text key seed value.toUTF8
  refine ⟨token, htoken, ?_⟩
  unfold encrypt
  rw [Proc.run_bind_of_ok (run_loadPrimaryKey fernet keySeed env), toFernet_of_ofKey fernet h,
    Py.ofResult_ok_bind, ← htoken, decodeUtf8_toUTF8]
  rfl

theorem after_encrypt {env : Environ} (hkeys : ValidKeys fernet env) (value : String)
    (keySeed seed : Seed) :
    Proc.after (encrypt fernet value keySeed seed) env = settled fernet keySeed env := by
  obtain ⟨key, hkey⟩ := Option.isSome_iff_exists.mp (isSome_ofKey_primaryText fernet hkeys keySeed)
  obtain ⟨token, -, hrun⟩ := run_encrypt fernet value seed hkey
  exact Proc.after_of_ok hrun

theorem run_loadAllKeys (seed : Seed) (env : Environ) :
    (loadAllKeys fernet seed).run env =
      .ok ((primaryText fernet seed env).toUTF8 ::
        rotatedKeys (settled fernet seed env) (List.range' 1 10)) (settled fernet seed env) := by
  unfold loadAllKeys
  rw [Proc.run_bind_of_ok (run_loadPrimaryKey fernet seed env)]
  rfl

theorem after_decrypt (token : String) (keySeed : Seed) (env : Environ) :
    Proc.after (decrypt fernet token keySeed) env = settled fernet keySeed env := by
  unfold decrypt
  rw [Proc.after_bind, run_loadAllKeys]
  dsimp only
  cases decryptWith fernet _ token <;> rfl

/-- One of the keys is the token's, and the others reject it. -/
theorem decryptWith_ok {raws : List ByteArray} (hvalid : ∀ raw ∈ raws, (fernet.ofKey raw).isSome)
    {raw : ByteArray} (hmem : raw ∈ raws) {key : Key} (hkey : fernet.ofKey raw = some key)
    {token value : String} {seed : Seed}
    (htoken : token.toUTF8 = fernet.encrypt key seed value.toUTF8) :
    decryptWith fernet raws token = .ok value := by
  have hfernet : ∀ raw ∈ raws, ∃ k, toFernet fernet raw = .ok k := by
    intro raw hraw
    obtain ⟨k, hk⟩ := Option.isSome_iff_exists.mp (hvalid raw hraw)
    exact ⟨k, toFernet_of_ofKey fernet hk⟩
  obtain ⟨keys, hkeys⟩ := Proc.mapM_ok_iff.mpr hfernet
  have hmap : keys.map some = raws.map fernet.ofKey := by
    refine Proc.mapM_map_eq (fun raw k h => ?_) hkeys
    unfold toFernet at h
    split at h
    · next k' hk' => rw [hk', Except.ok.inj h]
    · cases h
  have hin : key ∈ keys := by
    have hsome : some key ∈ keys.map some := by
      rw [hmap, ← hkey]
      exact List.mem_map_of_mem hmem
    obtain ⟨k, hk, heq⟩ := List.mem_map.mp hsome
    exact Option.some.inj heq ▸ hk
  have hfound : keys.findSome? (fernet.decrypt · token.toUTF8) = some value.toUTF8 := by
    rw [htoken]
    refine FirstDecision.findSome?_of_agree hin (fernet.decrypt_encrypt ..)
      fun other _ data hdata => ?_
    by_cases hother : other = key
    · rw [hother, fernet.decrypt_encrypt] at hdata
      exact (Option.some.inj hdata).symm
    · rw [fernet.decrypt_other key other seed _ hother] at hdata
      cases hdata
  unfold decryptWith
  rw [hkeys]
  show (do let data ← multiDecrypt fernet keys token.toUTF8; decodeUtf8 data) = _
  unfold multiDecrypt
  rw [hfound]
  exact decodeUtf8_toUTF8 value

/-! ## Where a key is -/

/-- The key is in the slot, and no slot before it is empty. -/
structure Kept (raw : String) (r : Nat) (env : Environ) : Prop where
  here : keyText r env = some raw
  filled : ∀ i < r, (keyText i env).isSome

/-- So the primary slot is filled. -/
theorem Kept.primary {raw : String} {r : Nat} {env : Environ} (h : Kept raw r env) :
    ∃ text, keyText 0 env = some text := by
  by_cases hzero : r = 0
  · exact ⟨raw, hzero ▸ h.here⟩
  · exact Option.isSome_iff_exists.mp (h.filled 0 (by omega))

/-- The scan reaches a key if it finds no gap before it. -/
theorem mem_rotatedKeys {env : Environ} {raw : String} {r n : Nat} (start : Nat)
    (hraw : keyText r env = some raw) (hstart : start ≤ r) (hend : r < start + n)
    (hfilled : ∀ i, start ≤ i → i < r → (keyText i env).isSome) :
    raw.toUTF8 ∈ rotatedKeys env (List.range' start n) := by
  induction n generalizing start with
  | zero => omega
  | succ n ih =>
      rw [List.range'_succ]
      unfold rotatedKeys
      by_cases hhere : start = r
      · rw [hhere, hraw]
        exact List.mem_cons_self
      · obtain ⟨text, htext⟩ :=
          Option.isSome_iff_exists.mp (hfilled start (Nat.le_refl _) (by omega))
        rw [htext]
        have hrest := ih (start + 1) (by omega) (by omega)
          fun i hi => hfilled i (by omega)
        exact List.mem_cons_of_mem _ hrest

theorem of_mem_rotatedKeys {env : Environ} {slots : List Nat} {bytes : ByteArray}
    (h : bytes ∈ rotatedKeys env slots) :
    ∃ i ∈ slots, ∃ raw, keyText i env = some raw ∧ bytes = raw.toUTF8 := by
  induction slots with
  | nil => exact absurd h List.not_mem_nil
  | cons i slots ih =>
      unfold rotatedKeys at h
      cases hkey : keyText i env with
      | none =>
          rw [hkey] at h
          exact absurd h List.not_mem_nil
      | some raw =>
          rw [hkey] at h
          rcases List.mem_cons.mp h with rfl | hrest
          · exact ⟨i, List.mem_cons_self, raw, hkey, rfl⟩
          · obtain ⟨j, hj, hfound⟩ := ih hrest
            exact ⟨j, List.mem_cons_of_mem _ hj, hfound⟩

/-- A token of a key in one of the eleven slots is decrypted. -/
theorem decrypt_ok {env : Environ} (hkeys : ValidKeys fernet env) {raw : String} {r : Nat}
    (hr : r ≤ 10) (hkept : Kept raw r env) {key : Key}
    (hkey : fernet.ofKey raw.toUTF8 = some key) {token value : String} {seed : Seed}
    (htoken : token.toUTF8 = fernet.encrypt key seed value.toUTF8) (keySeed : Seed) :
    (decrypt fernet token keySeed).run env = .ok value env := by
  obtain ⟨text, htext⟩ := hkept.primary
  have hload := run_loadAllKeys fernet keySeed env
  rw [settled_of_some fernet htext] at hload
  have hfirst : primaryText fernet keySeed env = text := by
    unfold primaryText
    rw [htext]
    rfl
  rw [hfirst] at hload
  unfold decrypt
  rw [Proc.run_bind_of_ok hload, decryptWith_ok fernet ?_ ?_ hkey htoken]
  · rfl
  · intro bytes hbytes
    rcases List.mem_cons.mp hbytes with rfl | hrest
    · exact hkeys 0 (by omega) text htext
    · obtain ⟨i, hi, other, hother, rfl⟩ := of_mem_rotatedKeys hrest
      have hbound : i ≤ 10 := by
        have := List.mem_range'_1.mp hi
        omega
      exact hkeys i hbound other hother
  · by_cases hzero : r = 0
    · have hsame : text = raw := by
        have hhere := hkept.here
        rw [hzero, htext] at hhere
        exact Option.some.inj hhere
      rw [hsame]
      exact List.mem_cons_self
    · refine List.mem_cons_of_mem _ (mem_rotatedKeys 1 hkept.here (by omega) (by omega) ?_)
      exact fun i _ hi => hkept.filled i hi

/-! ## Rotations -/

/-- The protocol of `rotate_key`: the new key is stored as the primary one, and every other
    moves down by one slot. What falls out of the last slot may be kept or not. -/
structure Rotated (new : String) (env env' : Environ) : Prop where
  primary : getSecret (slot 0) env' = some new
  shifted : ∀ i < 10, getSecret (slot (i + 1)) env' = getSecret (slot i) env

/-- One step of a shift: the secret of a slot, moved to the next one. -/
def moveDown (env : Environ) (i : Nat) : Environ :=
  Function.update env (secretVariable (slot (i + 1))) (getSecret (slot i) env)

/-- The protocol, carried out from the last slot upwards. -/
def rotateSecrets (new : String) (env : Environ) : Environ :=
  ((List.range 10).reverse.foldl moveDown env).set (secretVariable (slot 0)) new

theorem getSecret_moveDown {i j : Nat} (h : i ≠ j + 1) (env : Environ) :
    getSecret (slot i) (moveDown env j) = getSecret (slot i) env := by
  have hname : secretVariable (slot i) ≠ secretVariable (slot (j + 1)) :=
    fun heq => h (secretVariable_slot_inj heq)
  unfold getSecret moveDown
  rw [Function.update_of_ne hname]

/-- Moves that stay below a slot. -/
theorem getSecret_foldl_moveDown_of_lt {m i : Nat} (h : m < i) (env : Environ) :
    getSecret (slot i) ((List.range m).reverse.foldl moveDown env) = getSecret (slot i) env := by
  induction m generalizing env with
  | zero => rfl
  | succ m ih =>
      rw [List.range_succ, List.reverse_append, List.reverse_singleton, List.singleton_append,
        List.foldl_cons, ih (by omega), getSecret_moveDown (by omega)]

/-- Moving the first `n` slots down, the last one first. -/
theorem getSecret_foldl_moveDown (n : Nat) (env : Environ) {i : Nat} (hi : i < n) :
    getSecret (slot (i + 1)) ((List.range n).reverse.foldl moveDown env) =
      getSecret (slot i) env := by
  induction n generalizing env with
  | zero => omega
  | succ n ih =>
      rw [List.range_succ, List.reverse_append, List.reverse_singleton, List.singleton_append,
        List.foldl_cons]
      by_cases hlast : i = n
      · rw [hlast, getSecret_foldl_moveDown_of_lt (Nat.lt_succ_self n)]
        unfold getSecret moveDown
        rw [Function.update_self]
        rfl
      · rw [ih (moveDown env n) (by omega), getSecret_moveDown (by omega)]

theorem rotated_rotateSecrets (new : String) (env : Environ) :
    Rotated new env (rotateSecrets new env) := by
  constructor
  · exact getSecret_set_self 0 _ new
  · intro i hi
    unfold rotateSecrets
    rw [getSecret_set_of_ne (Nat.succ_ne_zero i), getSecret_foldl_moveDown 10 env hi]

/-! ## Histories -/

/-- A call of `encrypt` or `decrypt`, or a rotation, with the randomness each uses. -/
inductive KeyEvent (Seed : Type) where
  | encrypt (value : String) (keySeed seed : Seed)
  | decrypt (token : String) (keySeed : Seed)
  | rotate (seed : Seed)

/-- What an event does to the environment. -/
def KeyEvent.Step : KeyEvent Seed → Environ → Environ → Prop
  | .encrypt value keySeed seed, env, env' =>
      env' = Proc.after (Security.encrypt fernet value keySeed seed) env
  | .decrypt token keySeed, env, env' =>
      env' = Proc.after (Security.decrypt fernet token keySeed) env
  | .rotate seed, env, env' =>
      ∃ new, rotateKey fernet seed = .ok new ∧ Rotated new env env'

/-- The number of rotations in a history. -/
def rotations (events : List (KeyEvent Seed)) : Nat :=
  events.countP fun
    | .rotate _ => true
    | _ => false

/-- The newest key of a history: the last one that was rotated in, or else the one there was,
    or else the one that the first call generated. -/
def newestKey (known : Option String) : List (KeyEvent Seed) → Option String
  | [] => known
  | .encrypt _ keySeed _ :: events =>
      newestKey (some (known.getD (generatedText fernet keySeed))) events
  | .decrypt _ keySeed :: events =>
      newestKey (some (known.getD (generatedText fernet keySeed))) events
  | .rotate seed :: events => newestKey (some (generatedText fernet seed)) events

theorem keyText_rotated {new : String} {env env' : Environ} (h : Rotated new env env') {i : Nat}
    (hi : i < 10) : keyText (i + 1) env' = keyText i env := by
  unfold keyText
  rw [h.shifted i hi]

theorem keyText_zero_rotated {new : String} {env env' : Environ} (h : Rotated new env env')
    (hne : new ≠ "") : keyText 0 env' = some new :=
  keyText_of_getSecret h.primary hne

/-- The rotation of a history, with its new key. -/
theorem rotated_of_step {seed : Seed} {env env' : Environ}
    (h : (KeyEvent.rotate seed).Step fernet env env') :
    Rotated (generatedText fernet seed) env env' := by
  obtain ⟨new, hnew, hrotated⟩ := h
  rw [rotateKey_eq] at hnew
  rw [Except.ok.inj hnew]
  exact hrotated

/-- The environment after an event that is no rotation. -/
theorem settled_of_step {env env' : Environ} (hkeys : ValidKeys fernet env)
    {event : KeyEvent Seed} (h : event.Step fernet env env') :
    (∃ seed, event = .rotate seed) ∨ ∃ keySeed, env' = settled fernet keySeed env ∧
      (∀ known events, newestKey fernet known (event :: events) =
        newestKey fernet (some (known.getD (generatedText fernet keySeed))) events) ∧
      ∀ events, rotations (event :: events) = rotations events := by
  cases event with
  | encrypt value keySeed seed =>
      have henv : env' = settled fernet keySeed env := by
        rw [← after_encrypt fernet hkeys value keySeed seed]
        exact h
      exact .inr ⟨keySeed, henv, fun _ _ => rfl, fun _ => rfl⟩
  | decrypt token keySeed =>
      have henv : env' = settled fernet keySeed env := by
        rw [← after_decrypt fernet token keySeed env]
        exact h
      exact .inr ⟨keySeed, henv, fun _ _ => rfl, fun _ => rfl⟩
  | rotate seed => exact .inl ⟨seed, rfl⟩

theorem ValidKeys.step {env env' : Environ} (hkeys : ValidKeys fernet env)
    {event : KeyEvent Seed} (h : event.Step fernet env env') : ValidKeys fernet env' := by
  rcases settled_of_step fernet hkeys h with ⟨seed, rfl⟩ | ⟨keySeed, rfl, -⟩
  · have hrotated := rotated_of_step fernet h
    intro i hi raw hraw
    cases i with
    | zero =>
        rw [keyText_zero_rotated hrotated (generatedText_ne fernet seed)] at hraw
        obtain rfl := Option.some.inj hraw
        exact isSome_ofKey_generatedText fernet seed
    | succ i =>
        rw [keyText_rotated hrotated (by omega)] at hraw
        exact hkeys i (by omega) raw hraw
  · exact hkeys.settled fernet keySeed

theorem ValidKeys.inTurn {events : List (KeyEvent Seed)} {env env' : Environ}
    (h : InTurn (KeyEvent.Step fernet) events env env') (hkeys : ValidKeys fernet env) :
    ValidKeys fernet env' := by
  induction h with
  | nil env => exact hkeys
  | cons head tail ih => exact ih (hkeys.step fernet head)

/-- The primary slot holds the newest key. -/
theorem keyText_zero_inTurn {events : List (KeyEvent Seed)} {env env' : Environ}
    (h : InTurn (KeyEvent.Step fernet) events env env') (hkeys : ValidKeys fernet env) :
    keyText 0 env' = newestKey fernet (keyText 0 env) events := by
  induction h with
  | nil env => rfl
  | @cons event events env env₁ env' head tail ih =>
      rw [ih (hkeys.step fernet head)]
      rcases settled_of_step fernet hkeys head with ⟨seed, rfl⟩ | ⟨keySeed, rfl, hnewest, -⟩
      · rw [keyText_zero_rotated (rotated_of_step fernet head) (generatedText_ne fernet seed)]
        rfl
      · rw [keyText_settled, hnewest]
        rfl

/-- A key moves down by one slot with each rotation. -/
theorem Kept.inTurn {raw : String} {events : List (KeyEvent Seed)} {env env' : Environ}
    (h : InTurn (KeyEvent.Step fernet) events env env') (hkeys : ValidKeys fernet env) {r : Nat}
    (hr : r + rotations events ≤ 10) (hkept : Kept raw r env) :
    Kept raw (r + rotations events) env' := by
  induction h generalizing r with
  | nil env => exact hkept
  | @cons event events env env₁ env' head tail ih =>
      have hvalid := hkeys.step fernet head
      rcases settled_of_step fernet hkeys head with ⟨seed, rfl⟩ | ⟨keySeed, henv, -, hcount⟩
      · have hrotated := rotated_of_step fernet head
        have hcount : rotations (.rotate seed :: events) = rotations events + 1 :=
          List.countP_cons_of_pos rfl
        rw [hcount] at hr ⊢
        have hnext : Kept raw (r + 1) env₁ := by
          constructor
          · rw [keyText_rotated hrotated (by omega)]
            exact hkept.here
          · intro i hi
            cases i with
            | zero =>
                rw [keyText_zero_rotated hrotated (generatedText_ne fernet seed)]
                rfl
            | succ i =>
                rw [keyText_rotated hrotated (by omega)]
                exact hkept.filled i (by omega)
        have hrest := ih hvalid (r := r + 1) (by omega) hnext
        have hsum : r + 1 + rotations events = r + (rotations events + 1) := by omega
        exact hsum ▸ hrest
      · -- the primary slot is filled, so the environment stays as it is
        obtain ⟨text, htext⟩ := hkept.primary
        rw [settled_of_some fernet htext] at henv
        rw [hcount] at hr ⊢
        subst henv
        exact ih hvalid hr hkept

/-- **Rotation.** From any environment with valid keys or none, after any history, a call of
    `encrypt` returns a token of the newest key, and whatever history with at most ten rotations
    follows, `decrypt` returns the value that was encrypted. -/
theorem decrypt_after_rotations {env env₁ env₂ : Environ} (hkeys : ValidKeys fernet env)
    {earlier later : List (KeyEvent Seed)} {value : String} {keySeed seed : Seed}
    (hearlier : InTurn (KeyEvent.Step fernet) earlier env env₁)
    (hlater : InTurn (KeyEvent.Step fernet) (.encrypt value keySeed seed :: later) env₁ env₂)
    (hrotations : rotations later ≤ 10) (lastSeed : Seed) :
    ∃ raw key token,
      newestKey fernet (keyText 0 env) (earlier ++ [.encrypt value keySeed seed]) = some raw ∧
      fernet.ofKey raw.toUTF8 = some key ∧
      token.toUTF8 = fernet.encrypt key seed value.toUTF8 ∧
      Proc.outcome (encrypt fernet value keySeed seed) env₁ = .ok token ∧
      (decrypt fernet token lastSeed).run env₂ = .ok value env₂ := by
  obtain ⟨env', hencrypt, hrest⟩ := InTurn.cons_iff.mp hlater
  have hkeys₁ : ValidKeys fernet env₁ := ValidKeys.inTurn fernet hearlier hkeys
  have hkeys' : ValidKeys fernet env' := hkeys₁.step fernet hencrypt
  have henv : env' = settled fernet keySeed env₁ := by
    rw [← after_encrypt fernet hkeys₁ value keySeed seed]
    exact hencrypt
  have hprimary : keyText 0 env' = some (primaryText fernet keySeed env₁) := by
    rw [henv, keyText_settled]
  obtain ⟨key, hkey⟩ :=
    Option.isSome_iff_exists.mp (isSome_ofKey_primaryText fernet hkeys₁ keySeed)
  obtain ⟨token, htoken, hrun⟩ := run_encrypt fernet value seed hkey
  refine ⟨primaryText fernet keySeed env₁, key, token, ?_, hkey, htoken, ?_, ?_⟩
  · rw [← hprimary]
    have hhistory := hearlier.append (.cons hencrypt (.nil env'))
    exact (keyText_zero_inTurn fernet hhistory hkeys).symm
  · unfold Proc.outcome
    rw [hrun]
  · have hkept : Kept (primaryText fernet keySeed env₁) 0 env' := ⟨hprimary, by simp⟩
    have hmoved := Kept.inTurn fernet hrest hkeys' (by omega) hkept
    exact decrypt_ok fernet (ValidKeys.inTurn fernet hrest hkeys') (by omega) hmoved hkey htoken
      lastSeed

end Encryption

section Example

def zeroKey : String := "AAAAAAAAAAAAAAAAAAAAAAAAAAAAAAAAAAAAAAAAAAA="

def otherKey : String := "EEEEEEEEEEEEEEEEEEEEEEEEEEEEEEEEEEEEEEEEEEE="

def letterOfKey (bytes : ByteArray) : Option Bool :=
  if bytes.data = zeroKey.toUTF8.data then some false
  else if bytes.data = otherKey.toUTF8.data then some true
  else none

def letterKey (seed : Bool) : ByteArray :=
  (if seed then otherKey else zeroKey).toUTF8

def letterEncrypt (key _seed : Bool) (data : ByteArray) : ByteArray :=
  (String.ofList ((if key then 'b' else 'a') ::
    data.data.toList.map fun byte => Char.ofNat byte.toNat)).toUTF8

def letterDecrypt (key : Bool) (token : ByteArray) : Option ByteArray :=
  match (String.fromUTF8? token).map String.toList with
  | some (letter :: rest) =>
      if letter = (if key then 'b' else 'a') then
        some ⟨(rest.map fun c => UInt8.ofNat c.toNat).toArray⟩
      else none
  | _ => none

theorem letterKey_text (seed : Bool) : ∃ text : String, text ≠ "" ∧ text.toUTF8 = letterKey seed :=
  ⟨_, by cases seed <;> decide, rfl⟩

theorem letterOfKey_letterKey (seed : Bool) : (letterOfKey (letterKey seed)).isSome := by
  cases seed <;> decide

theorem letterEncrypt_text (key seed : Bool) (data : ByteArray) :
    ∃ text : String, text.toUTF8 = letterEncrypt key seed data :=
  ⟨_, rfl⟩

theorem letterDecrypt_letterEncrypt (key seed : Bool) (data : ByteArray) :
    letterDecrypt key (letterEncrypt key seed data) = some data := by
  have hbyte : ∀ byte : UInt8, UInt8.ofNat (Char.ofNat byte.toNat).toNat = byte := by
    intro byte
    have hvalid : byte.toNat.isValidChar := .inl (by have := byte.toNat_lt; omega)
    have hchar : (Char.ofNat byte.toNat).toNat = byte.toNat := by
      unfold Char.ofNat
      rw [dif_pos hvalid]
      rfl
    rw [hchar, UInt8.ofNat_toNat]
  have hbytes : ((data.data.toList.map fun byte => Char.ofNat byte.toNat).map
      fun c => UInt8.ofNat c.toNat) = data.data.toList := by
    rw [List.map_map]
    exact (List.map_congr_left fun byte _ => hbyte byte).trans (List.map_id _)
  unfold letterDecrypt letterEncrypt
  rw [fromUTF8?_toUTF8]
  simp only [Option.map_some, String.toList_ofList, if_true, hbytes]

theorem letterDecrypt_other (key other seed : Bool) (data : ByteArray) (h : other ≠ key) :
    letterDecrypt other (letterEncrypt key seed data) = none := by
  unfold letterDecrypt letterEncrypt
  rw [fromUTF8?_toUTF8]
  simp only [Option.map_some, String.toList_ofList]
  rw [if_neg]
  cases key <;> cases other <;> simp at h ⊢

/-- Two keys, that mark what they encrypt by a letter. -/
def letterFernet : Fernet Bool Bool where
  ofKey := letterOfKey
  generateKey := letterKey
  encrypt := letterEncrypt
  decrypt := letterDecrypt
  generateKey_text := letterKey_text
  ofKey_generateKey := letterOfKey_letterKey
  encrypt_text := letterEncrypt_text
  decrypt_encrypt := letterDecrypt_letterEncrypt
  decrypt_other := letterDecrypt_other

/-- A generated key, a token of it, and a rotation. -/
theorem letterFernet_rotation :
    ∃ token, (Proc.outcome (encrypt letterFernet "password" false false) fun _ => none) =
        .ok token ∧
      let env := rotateSecrets otherKey (settled letterFernet false fun _ => none)
      (decrypt letterFernet token false).run env = .ok "password" env := by
  have hkeys : ValidKeys letterFernet fun _ => none := by
    intro i _ raw hraw
    have hnone : (none : Option String) = some raw := hraw
    cases hnone
  have hencrypt : (KeyEvent.encrypt "password" false false).Step letterFernet (fun _ => none)
      (settled letterFernet false fun _ => none) :=
    (after_encrypt letterFernet hkeys "password" false false).symm
  have hrotate : (KeyEvent.rotate true).Step letterFernet
      (settled letterFernet false fun _ => none)
      (rotateSecrets otherKey (settled letterFernet false fun _ => none)) :=
    ⟨otherKey, decodeUtf8_toUTF8 otherKey, rotated_rotateSecrets otherKey _⟩
  obtain ⟨raw, key, token, -, -, -, hout, hrun⟩ := decrypt_after_rotations letterFernet hkeys
    (.nil _) (.cons hencrypt (.cons hrotate (.nil _))) (by decide) false
  exact ⟨token, hout, hrun⟩

end Example

end AgentCorp.Security
