import PySwitch.Fingerprint
import PySwitch.PrefixCode

namespace PySwitch.RequestIdentity

open Function PrefixCode

def hexValue (c : Char) : ℕ := "0123456789abcdef".toList.idxOf c

def codeUnit (a b c d : Char) : ℕ :=
  hexValue a * 4096 + hexValue b * 256 + hexValue c * 16 + hexValue d

/-- The reader of one character of an encoded string. -/
def unescape : List Char → Option (Char × List Char)
  | '\\' :: 'u' :: a :: b :: c :: d :: rest =>
    if codeUnit a b c d < 55296 ∨ 57343 < codeUnit a b c d then
      some (Char.ofNat (codeUnit a b c d), rest)
    else
      match rest with
      | '\\' :: 'u' :: a' :: b' :: c' :: d' :: rest =>
        some (Char.ofNat (65536 + (codeUnit a b c d - 55296) * 1024 +
          (codeUnit a' b' c' d' - 56320)), rest)
      | _ => none
  | '\\' :: 'n' :: rest => some ('\n', rest)
  | '\\' :: 'r' :: rest => some ('\r', rest)
  | '\\' :: 't' :: rest => some ('\t', rest)
  | '\\' :: 'f' :: rest => some (Char.ofNat 12, rest)
  | '\\' :: 'b' :: rest => some (Char.ofNat 8, rest)
  | '\\' :: c :: rest => some (c, rest)
  | c :: rest => some (c, rest)
  | [] => none

theorem hexValue_hexDigit (n : ℕ) : hexValue (hexDigit n) = n % 16 := by
  have small : ∀ d < 16, hexValue (hexDigit d) = d := by decide
  have same : hexDigit n = hexDigit (n % 16) := by rw [hexDigit, hexDigit, Nat.mod_mod]
  rw [same]
  exact small _ (Nat.mod_lt _ (by decide))

/-- Four digits give back a code unit. -/
theorem codeUnit_hexDigit {unit : ℕ} (h : unit < 65536) :
    codeUnit (hexDigit (unit / 4096)) (hexDigit (unit / 256)) (hexDigit (unit / 16))
      (hexDigit unit) = unit := by
  simp only [codeUnit, hexValue_hexDigit]
  omega

theorem unescape_basic {unit : ℕ} (h : unit < 55296 ∨ 57343 < unit) (small : unit < 65536)
    (rest : List Char) : unescape (unicodeEscape unit ++ rest) = some (Char.ofNat unit, rest) := by
  simp only [unicodeEscape, List.cons_append, List.nil_append, unescape, codeUnit_hexDigit small,
    if_pos h]

theorem unescape_surrogates {high low : ℕ} (h : 55296 ≤ high ∧ high ≤ 57343) (small : low < 65536)
    (rest : List Char) : unescape (unicodeEscape high ++ unicodeEscape low ++ rest) =
      some (Char.ofNat (65536 + (high - 55296) * 1024 + (low - 56320)), rest) := by
  have surrogate : ¬ (high < 55296 ∨ 57343 < high) := by omega
  simp only [unicodeEscape, List.cons_append, List.nil_append, unescape,
    codeUnit_hexDigit (show high < 65536 by omega), if_neg surrogate, codeUnit_hexDigit small]

/-- A character is a scalar value. -/
theorem toNat_scalar (c : Char) : c.toNat < 55296 ∨ 57343 < c.toNat ∧ c.toNat < 1114112 :=
  c.valid

theorem unescape_plain {c : Char} (h : c ≠ '\\') (rest : List Char) :
    unescape (c :: rest) = some (c, rest) := by
  unfold unescape
  split <;> simp_all

theorem unescape_jsonEscape (c : Char) (rest : List Char) :
    unescape (jsonEscape c ++ rest) = some (c, rest) := by
  unfold jsonEscape
  split
  · subst c; rfl
  split
  · subst c; rfl
  split
  · subst c; rfl
  split
  · subst c; rfl
  split
  · subst c; rfl
  split
  · rename_i feed
    rw [← Char.ofNat_toNat c, feed]
    rfl
  split
  · rename_i back
    rw [← Char.ofNat_toNat c, back]
    rfl
  split
  · rename_i backslash _ _ _ _ _ _
    exact unescape_plain backslash rest
  have scalar := toNat_scalar c
  split
  · rename_i small
    rw [unescape_basic (by omega) small, Char.ofNat_toNat]
  · rw [unescape_surrogates (by omega) (by omega)]
    have whole : 65536 + (55296 + (c.toNat - 65536) / 1024 - 55296) * 1024 +
        (56320 + (c.toNat - 65536) % 1024 - 56320) = c.toNat := by
      omega
    rw [whole, Char.ofNat_toNat]

theorem jsonEscape_starts (c : Char) : ∃ d word, jsonEscape c = d :: word ∧ d ≠ '"' := by
  unfold jsonEscape
  split
  · exact ⟨_, _, rfl, by decide⟩
  split
  · exact ⟨_, _, rfl, by decide⟩
  split
  · exact ⟨_, _, rfl, by decide⟩
  split
  · exact ⟨_, _, rfl, by decide⟩
  split
  · exact ⟨_, _, rfl, by decide⟩
  split
  · exact ⟨_, _, rfl, by decide⟩
  split
  · exact ⟨_, _, rfl, by decide⟩
  split
  · rename_i quote _ _ _ _ _ _ _
    exact ⟨_, _, rfl, quote⟩
  split
  · exact ⟨_, _, rfl, by decide⟩
  · exact ⟨_, _, rfl, by decide⟩

/-- Where an encoded string ends can be told from its text. -/
theorem jsonString_selfDelimiting : SelfDelimiting jsonString := by
  have body : SelfDelimiting fun s : String => s.toList.flatMap jsonEscape ++ ['"'] :=
    ((of_decoder unescape_jsonEscape).flatMap jsonEscape_starts).comp fun _ _ h =>
      String.toList_injective h
  exact body.after ['"']

theorem isDigit_of_mem_repr {n : ℕ} {c : Char} (h : c ∈ n.repr.toList) : c.isDigit := by
  rw [Nat.toList_repr] at h
  exact Nat.isDigit_of_mem_toDigits (by decide) (by decide) h

theorem toList_amount (amount : ℤ) : (toString amount).toList =
    if 0 ≤ amount then amount.toNat.repr.toList else '-' :: (-amount).toNat.repr.toList := by
  rw [Int.toString_eq_repr, Int.repr_eq_if]
  split
  · rfl
  · exact String.toList_append

theorem amount_injective : Injective fun amount : ℤ => (toString amount).toList := by
  have digits {m n : ℕ} (same : m.repr.toList = n.repr.toList) : m = n := by
    have values := congrArg (fun l => Nat.ofDigitChars 10 l 0) same
    simpa [Nat.toList_repr] using values
  have signed {m n : ℕ} (same : m.repr.toList = '-' :: n.repr.toList) : False := by
    have digit : '-'.isDigit = true := isDigit_of_mem_repr (same ▸ List.mem_cons_self)
    revert digit
    decide
  intro a b same
  simp only [toList_amount] at same
  split at same <;> split at same
  · have := digits same
    omega
  · exact (signed same).elim
  · exact (signed same.symm).elim
  · have := digits (List.cons.inj same).2
    omega

theorem amount_selfDelimiting :
    SelfDelimiting fun amount : ℤ => (toString amount).toList ++ [','] := by
  apply stopped amount_injective
  intro a comma
  have free (n : ℕ) : ',' ∉ n.repr.toList := by
    intro mem
    have digit := isDigit_of_mem_repr mem
    revert digit
    decide
  rw [toList_amount] at comma
  split at comma
  · exact free _ comma
  · obtain sign | mem := List.mem_cons.mp comma
    · revert sign
      decide
    · exact free _ mem

/-- The encoding, field after field in the order of the sorted keys. -/
def fields (f : ℤ × String × String × String × String) : List Char :=
  ('{' :: jsonString "amount" ++ [':']) ++ ((toString f.1).toList ++ [',']) ++
    (jsonString "currency" ++ [':'] ++ jsonString f.2.1 ++
      (',' :: jsonString "merchant_id" ++ [':'] ++ jsonString f.2.2.1 ++
        (',' :: jsonString "payment_method_type" ++ [':'] ++ jsonString f.2.2.2.1 ++
          (',' :: jsonString "token" ++ [':'] ++ jsonString f.2.2.2.2 ++ ['}']))))

theorem fields_selfDelimiting : SelfDelimiting fields := by
  have text := jsonString_selfDelimiting
  have token := (text.after (',' :: jsonString "token" ++ [':'])).before ['}']
  have method := (text.after (',' :: jsonString "payment_method_type" ++ [':'])).append token
  have merchant := (text.after (',' :: jsonString "merchant_id" ++ [':'])).append method
  have currency := (text.after (jsonString "currency" ++ [':'])).append merchant
  have amount := amount_selfDelimiting.after ('{' :: jsonString "amount" ++ [':'])
  exact amount.append currency

theorem canonicalJson_fields (a : PaymentInput) : canonicalJson a =
    fields (a.amount, a.currency, a.merchantId, a.paymentMethodType, a.token) := by
  simp [canonicalJson, fields, jsonField, List.intercalate]

theorem canonicalJson_inj {a b : PaymentInput} : canonicalJson a = canonicalJson b ↔
    a.merchantId = b.merchantId ∧ a.amount = b.amount ∧ a.currency = b.currency ∧
      a.paymentMethodType = b.paymentMethodType ∧ a.token = b.token := by
  rw [canonicalJson_fields, canonicalJson_fields, fields_selfDelimiting.injective.eq_iff]
  simp only [Prod.mk.injEq]
  tauto

/-- The separator is the last NUL, when the keys contain none. -/
theorem separated_inj {key key' : RecordKey} (free : Char.ofNat 0 ∉ key.2.toList)
    (free' : Char.ofNat 0 ∉ key'.2.toList)
    (same : key.1.toList ++ Char.ofNat 0 :: key.2.toList =
      key'.1.toList ++ Char.ofNat 0 :: key'.2.toList) : key = key' := by
  have backwards := congrArg List.reverse same
  simp only [List.reverse_append, List.reverse_cons, List.append_assoc, List.singleton_append]
    at backwards
  obtain ⟨second, first⟩ := split_stop (by rwa [List.mem_reverse]) (by rwa [List.mem_reverse])
    backwards
  exact Prod.ext (String.toList_injective (List.reverse_injective first))
    (String.toList_injective (List.reverse_injective second))

/-- The digest of a text is the digest of its bytes. -/
def hexdigest (digest : ByteArray → String) (text : List Char) : String :=
  digest (String.ofList text).toUTF8

theorem hexdigest_injective {digest : ByteArray → String} (inj : Injective digest) :
    Injective (hexdigest digest) := by
  intro u v h
  exact String.ofList_injective (String.toByteArray_inj.mp (inj h))

/-- Over an injective digest, a fingerprint tells the five fields of a request apart, and the name
of a Redis record tells merchants and keys apart. -/
theorem identity_injective {digest : ByteArray → String} (inj : Injective digest) :
    (∀ a b : PaymentInput,
      requestFingerprint (hexdigest digest) a = requestFingerprint (hexdigest digest) b ↔
        a.merchantId = b.merchantId ∧ a.amount = b.amount ∧ a.currency = b.currency ∧
          a.paymentMethodType = b.paymentMethodType ∧ a.token = b.token) ∧
    ∀ key key' : RecordKey, Char.ofNat 0 ∉ key.2.toList → Char.ofNat 0 ∉ key'.2.toList →
      (redisKey (hexdigest digest) key = redisKey (hexdigest digest) key' ↔ key = key') := by
  have inj := hexdigest_injective inj
  apply And.intro
  · intro a b
    exact inj.eq_iff.trans canonicalJson_inj
  · intro key key' free free'
    constructor
    · intro same
      exact separated_inj free free' (inj ((String.append_right_inj _).mp same))
    · rintro rfl
      rfl

/-- A digest with some known values. Whatever else is digested gives no digest of these. -/
def byByte (bytes : ByteArray) : String :=
  "x" ++ String.ofList (bytes.data.toList.map fun b => Char.ofNat b.toNat)

def known : List (ByteArray × String) → ByteArray → String
  | [], bytes => byByte bytes
  | v :: values, bytes => if bytes.data = v.1.data then v.2 else known values bytes

section Known

variable {v : ByteArray × String} {values : List (ByteArray × String)} {bytes : ByteArray}

theorem known_self : known (v :: values) v.1 = v.2 := if_pos rfl

theorem known_of_ne (other : bytes ≠ v.1) : known (v :: values) bytes = known values bytes :=
  if_neg fun same => other (ByteArray.ext same)

theorem byte_injective : Injective fun b : UInt8 => Char.ofNat b.toNat := by
  intro a b h
  have same := congrArg Char.toNat h
  have hex (b : UInt8) : (Char.ofNat b.toNat).toNat = b.toNat := by
    have small := b.toNat_lt
    have valid : b.toNat.isValidChar := .inl (by omega)
    rw [Char.ofNat, dif_pos valid]
    rfl
  rw [hex, hex] at same
  exact UInt8.toNat_inj.mp same

theorem byByte_injective : Injective byByte := by
  intro a b h
  have chars := String.ofList_injective ((String.append_right_inj _).mp h)
  exact ByteArray.ext (Array.toList_inj.mp (byte_injective.list_map chars))

theorem byByte_head (bytes : ByteArray) : (byByte bytes).toList.head? = some 'x' := by
  simp [byByte, String.toList_append]

theorem known_mem : known values bytes ∈ values.map Prod.snd ∨
    (known values bytes).toList.head? = some 'x' := by
  induction values with
  | nil => exact .inr (byByte_head bytes)
  | cons v values ih =>
    by_cases here : bytes = v.1
    · subst here
      rw [known_self]
      exact .inl List.mem_cons_self
    · rw [known_of_ne here]
      exact ih.imp_left (List.mem_cons_of_mem _)

theorem known_injective (distinct : (values.map Prod.snd).Nodup)
    (digests : ∀ s ∈ values.map Prod.snd, s.toList.head? ≠ some 'x') :
    Injective (known values) := by
  induction values with
  | nil => exact byByte_injective
  | cons v values ih =>
    obtain ⟨new, distinct⟩ := List.nodup_cons.mp distinct
    have inj := ih distinct fun s hs => digests s (List.mem_cons_of_mem _ hs)
    have fresh (bytes : ByteArray) : known values bytes ≠ v.2 := by
      intro same
      obtain mem | head := known_mem
      · exact new (same ▸ mem)
      · exact digests v.2 (List.mem_cons_self ..) (same ▸ head)
    intro a b h
    by_cases ha : a = v.1
    · by_cases hb : b = v.1
      · rw [ha, hb]
      · subst ha
        rw [known_self, known_of_ne hb] at h
        exact absurd h.symm (fresh b)
    · by_cases hb : b = v.1
      · subst hb
        rw [known_self, known_of_ne ha] at h
        exact absurd h (fresh a)
      · rw [known_of_ne ha, known_of_ne hb] at h
        exact inj h

end Known

/-- One token is a character outside the basic plane, the other one spells its escape. -/
def astral : PaymentInput := ⟨"m1", 100, "INR", "card", String.singleton (Char.ofNat 128512), "k"⟩

def spelled : PaymentInput := ⟨"m1", 100, "INR", "card", "\\ud83d\\ude00", "k"⟩

def bytesOf (text : List Char) : ByteArray := (String.ofList text).toUTF8

def sha256 : ByteArray → String := known
  [(bytesOf (canonicalJson astral),
      "d53b9892597ea4ed48f9620bcfa6e7125bd88b7770e951f46f1380e9f6cae3ea"),
    (bytesOf (canonicalJson spelled),
      "2c2cd983fc43357d70658e43d779931aaa431e2f074fc94e1a9a924147713518"),
    (bytesOf "m1\x00a\x00b".toList,
      "2da53ca0ebe975d6780b0153bd284ace9baa70ba374fe2f49e43da53737a3036"),
    (bytesOf "m1\x00ab".toList,
      "77af3ff4596c17c6bd300d3334024d1cef20c7a6920a51b7d092801569388938")]

theorem identity_injective_escapes :
    requestFingerprint (hexdigest sha256) astral ≠ requestFingerprint (hexdigest sha256) spelled ∧
    redisKey (hexdigest sha256) ("m1\x00a", "b") ≠ redisKey (hexdigest sha256) ("m1", "ab") := by
  have inj : Injective sha256 := known_injective (by decide) (by decide)
  obtain ⟨requests, records⟩ := identity_injective inj
  apply And.intro
  · intro same
    have token := ((requests astral spelled).mp same).2.2.2.2
    revert token
    decide
  · intro same
    have key := (records ("m1\x00a", "b") ("m1", "ab") (by decide) (by decide)).mp same
    revert key
    decide

end PySwitch.RequestIdentity
