import TransparentProxyNet.Lib.Buffer

/-! `FastAesGcmProcessor` of `AES.cpp`; the two programs have the same file. A buffer
is a pool node or the receive buffer, pointers into it are offsets, and an access
that leaves the buffer has no result. -/
namespace TransparentProxyNet
open Buffer

abbrev Bytes (n : Nat) := List.Vector UInt8 n

/-- Conversion of a `uint32_t` to `int`. -/
def int32 (x : UInt32) : Int := if x.toNat < 2 ^ 31 then x.toNat else x.toNat - 2 ^ 32

theorem ofInt_natCast {k : Nat} (small : k < 2 ^ 32) : UInt32.ofInt k = UInt32.ofNat k := by
  change UInt32.ofNat ((k : Int) % 2 ^ 32).toNat = _
  have same : ((k : Int) % 2 ^ 32).toNat = k := by omega
  rw [same]

theorem int32_of_lt {x : UInt32} (small : x.toNat < 2 ^ 31) : int32 x = x.toNat := if_pos small

/-- AES-256-GCM as EVP provides it: a stream cipher and a tag over the ciphertext. -/
structure AesGcm where
  encryptUpdate : Bytes 32 → Bytes 12 → List UInt8 → List UInt8
  decryptUpdate : Bytes 32 → Bytes 12 → List UInt8 → List UInt8
  tag : Bytes 32 → Bytes 12 → List UInt8 → Bytes 16
  encrypt_length : ∀ key iv pt, (encryptUpdate key iv pt).length = pt.length
  decrypt_length : ∀ key iv ct, (decryptUpdate key iv ct).length = ct.length
  decrypt_encrypt : ∀ key iv pt, decryptUpdate key iv (encryptUpdate key iv pt) = pt
  encrypt_decrypt : ∀ key iv ct, encryptUpdate key iv (decryptUpdate key iv ct) = ct

/-- A key stream added to the bytes it covers. -/
def addStream : List UInt8 → List UInt8 → List UInt8
  | k :: ks, b :: bs => (b ^^^ k) :: addStream ks bs
  | _, bs => bs

theorem addStream_length (ks bs : List UInt8) : (addStream ks bs).length = bs.length := by
  fun_induction addStream ks bs with
  | case1 k ks b bs ih => simp [ih]
  | case2 => rfl

theorem addStream_addStream (ks bs : List UInt8) : addStream ks (addStream ks bs) = bs := by
  fun_induction addStream ks bs with
  | case1 k ks b bs ih => rw [addStream, ih, UInt8.xor_assoc, UInt8.xor_self, UInt8.xor_zero]
  | case2 ks bs short =>
      cases ks with
      | nil => cases bs <;> rfl
      | cons k ks =>
          cases bs with
          | nil => rfl
          | cons b bs => exact absurd rfl (short k ks b bs rfl)

namespace AesGcm

/-- What AES-256-GCM adds to the first 40 bytes under the key and the IV of zeros. -/
def sampleStream : List UInt8 :=
  [206, 167, 64, 61, 77, 96, 107, 110, 7, 78, 197, 211, 186, 243, 157, 24, 114, 96, 3, 202,
    55, 166, 42, 116, 209, 162, 245, 142, 117, 6, 53, 142, 221, 74, 177, 40, 77, 74, 225, 123]

/-- A cipher for trying things out. It is AES-256-GCM for 40 bytes of zeros under the
key and the IV of zeros. -/
def sample : AesGcm where
  encryptUpdate _ _ := addStream sampleStream
  decryptUpdate _ _ := addStream sampleStream
  tag _ _ ct := if ct = sampleStream then
      ⟨[122, 27, 162, 199, 163, 18, 129, 90, 81, 153, 39, 127, 54, 198, 192, 230], rfl⟩
    else .replicate 16 0
  encrypt_length _ _ := addStream_length _
  decrypt_length _ _ := addStream_length _
  decrypt_encrypt _ _ := addStream_addStream _
  encrypt_decrypt _ _ := addStream_addStream _

end AesGcm

/-- What `RAND_bytes` and the EVP calls of one `doEncrypt` answer. -/
structure EncryptCalls where
  keyRand : Option (Bytes 32)
  ivRand : Option (Bytes 12)
  init : Bool
  update : Bool
  final : Bool
  getTag : Bool

def EncryptCalls.success (key : Bytes 32) (iv : Bytes 12) : EncryptCalls :=
  ⟨some key, some iv, true, true, true, true⟩

/-- Every call that `encrypt` makes succeeds. -/
def EncryptCalls.Encrypts (calls : EncryptCalls) : Prop :=
  calls.ivRand.isSome ∧ calls.init ∧ calls.update ∧ calls.final ∧ calls.getTag

theorem EncryptCalls.eq_success {calls : EncryptCalls} {key : Bytes 32}
    (keyed : calls.keyRand = some key) (encrypts : calls.Encrypts) :
    ∃ iv, calls = .success key iv := by
  obtain ⟨keyRand, ivRand, init, update, final, getTag⟩ := calls
  obtain ⟨drawn, rfl, rfl, rfl, rfl⟩ := encrypts
  obtain ⟨iv, rfl⟩ := Option.isSome_iff_exists.mp drawn
  cases keyed
  exact ⟨iv, rfl⟩

/-- What the EVP calls of one `doDecrypt` answer, apart from the check of the tag. -/
structure DecryptCalls where
  init : Bool
  update : Bool
  setTag : Bool

def DecryptCalls.success : DecryptCalls := ⟨true, true, true⟩

namespace FastAesGcm

abbrev KEYSIZE : Nat := 32
abbrev GCM_IV_SIZE : Nat := 12
abbrev GCM_TAG_SIZE : Nat := 16
abbrev PADDINGSIZE : Nat := 8

variable (A : AesGcm) {n : Nat}

/-- `encrypt`, in place. The result is the packed length, or `-1`. -/
def encrypt (calls : EncryptCalls) (buf : Bytes n) (plaintext : Nat) (plaintext_len : Int)
    (key out_buffer : Nat) : Option (Bytes n × Int) :=
  match calls.ivRand with
  | none => some (buf, -1)
  | some iv => do
    let buf ← write buf out_buffer iv.toList
    if !calls.init then return (buf, -1)
    let keyBytes ← read buf key KEYSIZE
    if !calls.update || plaintext_len < 0 then return (buf, -1)
    let plain ← read buf plaintext plaintext_len.toNat
    let cipher := A.encryptUpdate keyBytes iv plain.toList
    let buf ← write buf (out_buffer + GCM_IV_SIZE) cipher
    if !calls.final || !calls.getTag then return (buf, -1)
    let buf ← write buf (out_buffer + GCM_IV_SIZE + cipher.length) (A.tag keyBytes iv cipher).toList
    return (buf, GCM_IV_SIZE + cipher.length + GCM_TAG_SIZE)

/-- `doEncrypt`. `generate_random_aes_key` throws when the generator fails; the text
is that of the exception. -/
def doEncrypt (calls : EncryptCalls) (buf : Bytes n) (dataSize : UInt32) :
    Option (Bytes n × Except String UInt32) :=
  if dataSize ≤ 0 then some (buf, .ok (-1))
  else match calls.keyRand with
  | none => some (buf, .error "Failed to generate random AES key")
  | some key => do
    let buf ← write buf 0 key.toList
    let (buf, encLen) ← encrypt A calls buf (KEYSIZE + GCM_IV_SIZE) (int32 dataSize) 0 KEYSIZE
    if encLen < 0 then return (buf, .ok (-1))
    let buf ← write buf (KEYSIZE + encLen.toNat) (List.replicate PADDINGSIZE 0)
    return (buf, .ok (UInt32.ofNat (KEYSIZE + encLen.toNat + PADDINGSIZE)))

/-- `decrypt`, in place: the plaintext overwrites the ciphertext before the tag is
checked. -/
def decrypt (calls : DecryptCalls) (buf : Bytes n) (packed_data : Nat) (packed_len : Int)
    (key : Nat) (out_plaintext : Nat) : Option (Bytes n × Int) :=
  if packed_len < GCM_IV_SIZE + GCM_TAG_SIZE then some (buf, -1)
  else do
    let ciphertext_len := (packed_len - GCM_IV_SIZE - GCM_TAG_SIZE).toNat
    if !calls.init then return (buf, -1)
    let keyBytes ← read buf key KEYSIZE
    let iv ← read buf packed_data GCM_IV_SIZE
    if !calls.update then return (buf, -1)
    let cipher ← read buf (packed_data + GCM_IV_SIZE) ciphertext_len
    let buf ← write buf out_plaintext (A.decryptUpdate keyBytes iv cipher.toList)
    if !calls.setTag then return (buf, -1)
    let tag ← read buf (packed_data + GCM_IV_SIZE + ciphertext_len) GCM_TAG_SIZE
    if tag ≠ A.tag keyBytes iv cipher.toList then return (buf, -1)
    return (buf, ciphertext_len)

def doDecrypt (calls : DecryptCalls) (buf : Bytes n) (dataSize : UInt32) :
    Option (Bytes n × UInt32) :=
  let minLen := UInt32.ofNat (KEYSIZE + GCM_IV_SIZE + GCM_TAG_SIZE + PADDINGSIZE)
  if dataSize < minLen then some (buf, -1)
  else do
    let packed_len := int32 (dataSize - UInt32.ofNat KEYSIZE - UInt32.ofNat PADDINGSIZE)
    let (buf, plainLen) ← decrypt A calls buf KEYSIZE packed_len 0 (KEYSIZE + GCM_IV_SIZE)
    if plainLen < 0 then return (buf, -1)
    return (buf, UInt32.ofInt plainLen)

/-! ### What they compute on a well placed buffer -/

/-- The wire layout: key, IV, ciphertext, tag and eight bytes of padding. -/
def frame (key : Bytes 32) (iv : Bytes 12) (cipher : List UInt8) (tag : Bytes 16)
    (padding : List UInt8) : List UInt8 :=
  key.toList ++ iv.toList ++ cipher ++ tag.toList ++ padding

/-- The frame that `doEncrypt` makes of a plaintext. -/
def sealFrame (key : Bytes 32) (iv : Bytes 12) (plain : List UInt8) : List UInt8 :=
  let cipher := A.encryptUpdate key iv plain
  frame key iv cipher (A.tag key iv cipher) (List.replicate PADDINGSIZE 0)

theorem frame_length (key : Bytes 32) (iv : Bytes 12) (cipher : List UInt8) (tag : Bytes 16)
    (padding : List UInt8) :
    (frame key iv cipher tag padding).length = cipher.length + 60 + padding.length := by
  simp only [frame, List.length_append, List.Vector.toList_length]
  omega

@[simp] theorem sealFrame_length (key : Bytes 32) (iv : Bytes 12) (plain : List UInt8) :
    (sealFrame A key iv plain).length = plain.length + 68 := by
  rw [sealFrame, frame_length, A.encrypt_length]
  rfl

theorem encrypt_success {key : Bytes 32} (iv : Bytes 12) {buf : Bytes n}
    {b plain e rest : List UInt8}
    (shape : buf.toList = key.toList ++ b ++ plain ++ e ++ rest) (lb : b.length = 12)
    (le : e.length = 16) :
    ∃ out, encrypt A (.success key iv) buf 44 plain.length 0 32 =
      some (out, ((plain.length + 28 : Nat) : Int)) ∧
      out.toList = key.toList ++ iv.toList ++ A.encryptUpdate key iv plain ++
        (A.tag key iv (A.encryptUpdate key iv plain)).toList ++ rest := by
  have cipherLen := A.encrypt_length key iv plain
  have shape₀ : buf.toList = key.toList ++ b ++ (plain ++ e ++ rest) := by simpa using shape
  have atIv : key.toList.length = 32 := by simp
  obtain ⟨buf₁, write₁, shape₁⟩ := write_append iv.toList shape₀ atIv (by simp [lb])
  have readKey : read buf₁ 0 KEYSIZE = some key :=
    read_append key (a := []) (c := iv.toList ++ (plain ++ e ++ rest)) (by simpa using shape₁) rfl
  have shape₁ : buf₁.toList = key.toList ++ iv.toList ++ plain ++ (e ++ rest) := by
    simpa using shape₁
  have atPlain : (key.toList ++ iv.toList).length = 44 := by simp
  have atCipher : (key.toList ++ iv.toList).length = 32 + GCM_IV_SIZE := atPlain
  obtain ⟨v, readPlain, content⟩ := read_list shape₁ atPlain rfl
  obtain ⟨buf₂, write₂, shape₂⟩ :=
    write_append (A.encryptUpdate key iv plain) shape₁ atCipher cipherLen
  have shape₂ : buf₂.toList =
      key.toList ++ iv.toList ++ A.encryptUpdate key iv plain ++ e ++ rest := by
    simpa using shape₂
  have atTag : (key.toList ++ iv.toList ++ A.encryptUpdate key iv plain).length =
      32 + GCM_IV_SIZE + (A.encryptUpdate key iv plain).length := by
    rw [List.length_append, atCipher]
  obtain ⟨buf₃, write₃, shape₃⟩ :=
    write_append (A.tag key iv (A.encryptUpdate key iv plain)).toList shape₂ atTag (by simp [le])
  have nonneg : ¬ (plain.length : Int) < 0 := by omega
  refine ⟨buf₃, ?_, shape₃⟩
  simp only [encrypt, EncryptCalls.success, write₁, readKey, Option.bind_eq_bind, Option.bind_some,
    Bool.not_true, Bool.false_or, Bool.false_eq_true, if_false, decide_eq_true_eq, nonneg,
      Int.toNat_natCast,
    readPlain, content, write₂, write₃]
  rw [cipherLen]
  exact congrArg some (congrArg (Prod.mk buf₃) (by push_cast [GCM_IV_SIZE, GCM_TAG_SIZE]; omega))

/-- `doEncrypt` puts the frame of the plaintext at offset 44 at the start of the
buffer and writes nothing behind it. -/
theorem doEncrypt_success (key : Bytes 32) (iv : Bytes 12) {buf : Bytes n}
    {head plain spare rest : List UInt8}
    (shape : buf.toList = head ++ plain ++ spare ++ rest) (lh : head.length = 44)
    (ls : spare.length = 24) {dataSize : UInt32} (size : dataSize.toNat = plain.length)
    (pos : 0 < plain.length) (small : plain.length + 68 < 2 ^ 31) :
    ∃ out, doEncrypt A (.success key iv) buf dataSize =
      some (out, .ok (UInt32.ofNat (plain.length + 68))) ∧
      out.toList = sealFrame A key iv plain ++ rest := by
  have nonzero : ¬ dataSize ≤ 0 := by
    rw [UInt32.le_iff_toNat_le, size, UInt32.toNat_zero]
    omega
  have split : buf.toList = [] ++ head.take 32 ++ (head.drop 32 ++ plain ++ spare ++ rest) := by
    rw [List.nil_append, ← List.append_assoc, ← List.append_assoc, ← List.append_assoc,
      List.take_append_drop, shape]
  obtain ⟨buf₁, write₁, shape₁⟩ := write_append key.toList split List.length_nil (by simp [lh])
  have shape₁ : buf₁.toList = key.toList ++ head.drop 32 ++ plain ++ spare.take 16 ++
    (spare.drop 16 ++ rest) := by
    rw [← List.append_assoc, List.append_assoc _ (spare.take 16), List.take_append_drop, shape₁,
      List.nil_append, ← List.append_assoc, ← List.append_assoc, ← List.append_assoc]
  obtain ⟨buf₂, encrypted, shape₂⟩ := encrypt_success A iv shape₁ (by simp [lh]) (by simp [ls])
  have shape₂ : buf₂.toList = key.toList ++ iv.toList ++ A.encryptUpdate key iv plain ++
      (A.tag key iv (A.encryptUpdate key iv plain)).toList ++ spare.drop 16 ++ rest := by
    simpa using shape₂
  have atPadding : (key.toList ++ iv.toList ++ A.encryptUpdate key iv plain ++
      (A.tag key iv (A.encryptUpdate key iv plain)).toList).length =
      KEYSIZE + (plain.length + 28) := by
    simp only [List.length_append, List.Vector.toList_length, A.encrypt_length, KEYSIZE]
    omega
  obtain ⟨buf₃, write₃, shape₃⟩ :=
    write_append (List.replicate PADDINGSIZE 0) shape₂ atPadding (by simp [ls])
  have nonneg : ¬ ((plain.length + 28 : Nat) : Int) < 0 := by omega
  refine ⟨buf₃, ?_, by simp [shape₃, sealFrame, frame]⟩
  have signed : int32 dataSize = (plain.length : Int) := by
    rw [int32_of_lt (by omega), size]
  have encrypted : encrypt A (.success key iv) buf₁ (KEYSIZE + GCM_IV_SIZE) plain.length 0 KEYSIZE =
    some (buf₂, ((plain.length + 28 : Nat) : Int)) := encrypted
  simp only [doEncrypt, nonzero, if_false, EncryptCalls.success, write₁, Option.bind_eq_bind,
    Option.bind_some, signed]
  simp only [EncryptCalls.success] at encrypted
  simp only [encrypted, Option.bind_some, nonneg, if_false, Int.toNat_natCast, write₃]
  have total : KEYSIZE + (plain.length + 28) + PADDINGSIZE = plain.length + 68 := by
    simp only [KEYSIZE, PADDINGSIZE]
    omega
  rw [total]
  rfl

/-- Whichever call of `encrypt` fails, it stays inside its buffer and returns `-1`. -/
theorem encrypt_failure {calls : EncryptCalls} (failed : ¬ calls.Encrypts) (buf : Bytes n)
    {m : Nat} (inside : 44 + m ≤ n) : ∃ out, encrypt A calls buf 44 m 0 32 = some (out, -1) := by
  obtain ⟨keyRand, ivRand, init, update, final, getTag⟩ := calls
  cases ivRand with
  | none => exact ⟨buf, rfl⟩
  | some iv =>
    have ivInside : 32 + iv.toList.length ≤ n := by
      rw [List.Vector.toList_length]
      omega
    have keyInside : 0 + KEYSIZE ≤ n := by
      simp only [KEYSIZE]
      omega
    obtain ⟨buf₁, write₁, -⟩ := write_eq buf ivInside
    obtain ⟨keyBytes, readKey⟩ := read_total buf₁ keyInside
    obtain ⟨plain, readPlain⟩ := read_total buf₁ inside
    have cipherInside :
        32 + GCM_IV_SIZE + (A.encryptUpdate keyBytes iv plain.toList).length ≤ n := by
      rw [A.encrypt_length, List.Vector.toList_length]
      exact inside
    obtain ⟨buf₂, write₂, -⟩ := write_eq buf₁ cipherInside
    have nonneg : ¬ (m : Int) < 0 := by omega
    simp only [encrypt, write₁, Option.bind_eq_bind, Option.bind_some]
    cases init with
    | false => exact ⟨buf₁, rfl⟩
    | true =>
      cases update with
      | false => exact ⟨buf₁, by simp [readKey]⟩
      | true =>
        have last : (!final || !getTag) = true := by
          rw [Bool.or_eq_true, Bool.not_eq_true', Bool.not_eq_true', or_iff_not_imp_left]
          simpa [EncryptCalls.Encrypts] using failed
        exact ⟨buf₂, by simp [readKey, readPlain, write₂, last, nonneg]⟩

/-- The failure reaches the caller of `doEncrypt` as the largest unsigned number. -/
theorem doEncrypt_failure {calls : EncryptCalls} {key : Bytes 32}
    (keyed : calls.keyRand = some key) (failed : ¬ calls.Encrypts) (buf : Bytes n)
    (dataSize : UInt32) (pos : 0 < dataSize.toNat) (small : dataSize.toNat < 2 ^ 31)
    (inside : 44 + dataSize.toNat ≤ n) :
    ∃ out, doEncrypt A calls buf dataSize = some (out, .ok (-1)) := by
  have nonzero : ¬ dataSize ≤ 0 := by
    rw [UInt32.le_iff_toNat_le, UInt32.toNat_zero]
    omega
  have keyInside : 0 + key.toList.length ≤ n := by
    rw [List.Vector.toList_length]
    omega
  obtain ⟨buf₁, write₁, -⟩ := write_eq buf keyInside
  obtain ⟨out, encrypted⟩ := encrypt_failure A failed buf₁ inside
  refine ⟨out, ?_⟩
  have encrypted : encrypt A calls buf₁ (KEYSIZE + GCM_IV_SIZE) dataSize.toNat 0 KEYSIZE =
      some (out, -1) := encrypted
  simp only [doEncrypt, nonzero, if_false, keyed, write₁, int32_of_lt small, Option.bind_eq_bind,
    Option.bind_some, encrypted]
  rfl

theorem decrypt_success {key : Bytes 32} {iv : Bytes 12} {tag : Bytes 16} {buf : Bytes n}
    {cipher rest : List UInt8}
    (shape : buf.toList = key.toList ++ iv.toList ++ cipher ++ tag.toList ++ rest) :
    ∃ out, decrypt A .success buf 32 ((cipher.length + 28 : Nat) : Int) 0 44 =
        some (out, if tag = A.tag key iv cipher then (cipher.length : Int) else -1) ∧
      out.toList =
        key.toList ++ iv.toList ++ A.decryptUpdate key iv cipher ++ tag.toList ++ rest := by
  have plainLen := A.decrypt_length key iv cipher
  have readKey : read buf 0 KEYSIZE = some key :=
    read_append key (a := []) (c := iv.toList ++ cipher ++ tag.toList ++ rest)
      (by simpa using shape) rfl
  have readIv : read buf 32 GCM_IV_SIZE = some iv :=
    read_append iv (a := key.toList) (c := cipher ++ tag.toList ++ rest) (by simpa using shape)
      (by simp)
  have shape₀ : buf.toList = key.toList ++ iv.toList ++ cipher ++ (tag.toList ++ rest) := by
    simpa using shape
  have body : (((cipher.length + 28 : Nat) : Int) - GCM_IV_SIZE - GCM_TAG_SIZE).toNat =
      cipher.length := by
    simp only [GCM_IV_SIZE, GCM_TAG_SIZE]
    omega
  have atPlain : (key.toList ++ iv.toList).length = 44 := by simp
  have atCipher : (key.toList ++ iv.toList).length = 32 + GCM_IV_SIZE := atPlain
  obtain ⟨v, readCipher, content⟩ := read_list shape₀ atCipher body.symm
  obtain ⟨buf₁, write₁, shape₁⟩ :=
    write_append (A.decryptUpdate key iv cipher) shape₀ atPlain plainLen
  have atTag : (key.toList ++ iv.toList ++ A.decryptUpdate key iv cipher).length =
      32 + GCM_IV_SIZE + cipher.length := by
    rw [List.length_append, atCipher, plainLen]
  have readTag : read buf₁ (32 + GCM_IV_SIZE + cipher.length) GCM_TAG_SIZE = some tag :=
    read_append tag (by simpa using shape₁) atTag
  have enough : ¬ ((cipher.length + 28 : Nat) : Int) < GCM_IV_SIZE + GCM_TAG_SIZE := by
    simp only [GCM_IV_SIZE, GCM_TAG_SIZE]
    omega
  refine ⟨buf₁, ?_, by simpa using shape₁⟩
  simp only [decrypt, enough, if_false, body, DecryptCalls.success, Bool.not_true,
    Bool.false_eq_true, readKey, readIv, Option.bind_eq_bind, Option.bind_some, readCipher, content,
    write₁, readTag]
  by_cases same : tag = A.tag key iv cipher
  · simp [same]
  · simp [same]

/-- `doDecrypt` on a frame: the deciphered bytes stand at offset 44, whatever the tag
says, and the length is returned only if the tag matches. -/
theorem doDecrypt_frame {key : Bytes 32} {iv : Bytes 12} {tag : Bytes 16} {buf : Bytes n}
    {cipher padding rest : List UInt8}
    (shape : buf.toList = frame key iv cipher tag padding ++ rest)
    {dataSize : UInt32} (size : dataSize.toNat = cipher.length + 68)
    (small : cipher.length + 68 < 2 ^ 31) :
    ∃ out, doDecrypt A .success buf dataSize =
        some (out, if tag = A.tag key iv cipher then UInt32.ofNat cipher.length else -1) ∧
      out.toList = key.toList ++ iv.toList ++ A.decryptUpdate key iv cipher ++ tag.toList ++
        padding ++ rest := by
  have shape₀ : buf.toList =
      key.toList ++ iv.toList ++ cipher ++ tag.toList ++ (padding ++ rest) := by
    simpa [frame] using shape
  obtain ⟨out, decrypted, content⟩ := decrypt_success A shape₀
  have enough : ¬ dataSize < UInt32.ofNat (KEYSIZE + GCM_IV_SIZE + GCM_TAG_SIZE + PADDINGSIZE) := by
    rw [UInt32.lt_iff_toNat_lt, size]
    exact Nat.not_lt.mpr (Nat.le_add_left 68 _)
  have packed : (dataSize - UInt32.ofNat KEYSIZE - UInt32.ofNat PADDINGSIZE).toNat =
      cipher.length + 28 := by
    rw [UInt32.toNat_sub, UInt32.toNat_sub, size]
    change (2 ^ 32 - 8 + (2 ^ 32 - 32 + (cipher.length + 68)) % 2 ^ 32) % 2 ^ 32 = _
    omega
  have signed : int32 (dataSize - UInt32.ofNat KEYSIZE - UInt32.ofNat PADDINGSIZE) =
      ((cipher.length + 28 : Nat) : Int) := by
    rw [int32_of_lt (by omega), packed]
  have decrypted : decrypt A .success buf KEYSIZE ((cipher.length + 28 : Nat) : Int) 0
      (KEYSIZE + GCM_IV_SIZE) = some (out, _) := decrypted
  refine ⟨out, ?_, by simpa using content⟩
  simp only [doDecrypt, enough, if_false, signed, decrypted, Option.bind_eq_bind, Option.bind_some]
  have nonneg : ¬ (cipher.length : Int) < 0 := by omega
  by_cases same : tag = A.tag key iv cipher
  · have fits : cipher.length < 2 ^ 32 := by omega
    simp only [same, if_true, nonneg, if_false, ofInt_natCast fits]
    rfl
  · simp [same]

theorem decrypt_total (calls : DecryptCalls) (buf : Bytes n) {packed_len : Int}
    (inside : packed_len + 40 ≤ n) :
    ∃ out r, decrypt A calls buf 32 packed_len 0 44 = some (out, r) ∧
      (r = -1 ∨ 0 ≤ r ∧ r + 28 = packed_len) := by
  by_cases short : packed_len < GCM_IV_SIZE + GCM_TAG_SIZE
  · exact ⟨buf, -1, if_pos short, .inl rfl⟩
  have enough : 28 ≤ packed_len := not_lt.mp short
  obtain ⟨m, body⟩ : ∃ m, (packed_len - GCM_IV_SIZE - GCM_TAG_SIZE).toNat = m := ⟨_, rfl⟩
  have total : packed_len = m + 28 := by
    simp only [GCM_IV_SIZE, GCM_TAG_SIZE] at body
    omega
  have tagInside : 32 + GCM_IV_SIZE + m + GCM_TAG_SIZE ≤ n := by
    simp only [GCM_IV_SIZE, GCM_TAG_SIZE]
    omega
  have cipherInside : 32 + GCM_IV_SIZE + (packed_len - GCM_IV_SIZE - GCM_TAG_SIZE).toNat ≤ n := by
    rw [body]
    omega
  have ivInside : 32 + GCM_IV_SIZE ≤ n := by omega
  have keyInside : 0 + KEYSIZE ≤ n := by
    simp only [KEYSIZE]
    omega
  obtain ⟨keyBytes, readKey⟩ := read_total buf keyInside
  obtain ⟨iv, readIv⟩ := read_total buf ivInside
  obtain ⟨cipher, readCipher⟩ := read_total buf cipherInside
  have plainInside : 44 + (A.decryptUpdate keyBytes iv cipher.toList).length ≤ n := by
    rw [A.decrypt_length, cipher.toList_length, body]
    omega
  obtain ⟨buf₁, write₁, -⟩ := write_eq buf plainInside
  obtain ⟨tag, readTag⟩ := read_total buf₁ tagInside
  obtain ⟨init, update, setTag⟩ := calls
  simp only [decrypt, short, if_false, body, readKey, readIv, readCipher, write₁, readTag,
    Option.bind_eq_bind, Option.bind_some]
  cases init with
  | false => exact ⟨buf, -1, rfl, .inl rfl⟩
  | true =>
    cases update with
    | false => exact ⟨buf, -1, rfl, .inl rfl⟩
    | true =>
      cases setTag with
      | false => exact ⟨buf₁, -1, rfl, .inl rfl⟩
      | true =>
        by_cases same : tag = A.tag keyBytes iv cipher.toList
        · exact ⟨buf₁, m, by simp [same], .inr ⟨by omega, total.symm⟩⟩
        · exact ⟨buf₁, -1, by simp [same], .inl rfl⟩

/-- `doDecrypt` stays inside a buffer that holds the datagram. -/
theorem doDecrypt_total (calls : DecryptCalls) (buf : Bytes n) {dataSize : UInt32}
    (inside : dataSize.toNat ≤ n) (small : dataSize.toNat < 2 ^ 31) :
    ∃ out r, doDecrypt A calls buf dataSize = some (out, r) ∧
      (r = -1 ∨ r.toNat + 68 = dataSize.toNat) := by
  by_cases short : dataSize < UInt32.ofNat (KEYSIZE + GCM_IV_SIZE + GCM_TAG_SIZE + PADDINGSIZE)
  · exact ⟨buf, -1, if_pos short, .inl rfl⟩
  have enough : 68 ≤ dataSize.toNat := not_lt.mp short
  have signed : int32 (dataSize - UInt32.ofNat KEYSIZE - UInt32.ofNat PADDINGSIZE) =
      dataSize.toNat - 40 := by
    have packed : (dataSize - UInt32.ofNat KEYSIZE - UInt32.ofNat PADDINGSIZE).toNat =
        dataSize.toNat - 40 := by
      rw [UInt32.toNat_sub, UInt32.toNat_sub]
      change (2 ^ 32 - 8 + (2 ^ 32 - 32 + dataSize.toNat) % 2 ^ 32) % 2 ^ 32 = _
      omega
    rw [int32_of_lt (by omega), packed]
    omega
  have packedInside : ((dataSize.toNat : Int) - 40) + 40 ≤ n := by omega
  obtain ⟨out, r, decrypted, range⟩ := decrypt_total A calls buf packedInside
  have decrypted : decrypt A calls buf KEYSIZE (dataSize.toNat - 40) 0 (KEYSIZE + GCM_IV_SIZE) =
      some (out, r) :=
    decrypted
  simp only [doDecrypt, short, if_false, signed, decrypted, Option.bind_eq_bind, Option.bind_some]
  rcases range with rfl | ⟨nonneg, total⟩
  · exact ⟨out, -1, rfl, .inl rfl⟩
  · refine ⟨out, UInt32.ofInt r, by rw [if_neg (by omega)]; rfl, .inr ?_⟩
    obtain ⟨k, rfl⟩ := Int.eq_ofNat_of_zero_le nonneg
    rw [ofInt_natCast (by omega), UInt32.toNat_ofNat_of_lt' (by simp only [UInt32.size]; omega)]
    omega

/-! ### What they leave alone -/

/-- Whatever EVP answers, `encrypt` writes nothing behind the packed data. -/
theorem encrypt_drop {calls : EncryptCalls} {buf out : Bytes n} {plaintext key out_buffer k : Nat}
    {plaintext_len r : Int}
    (encrypted : encrypt A calls buf plaintext plaintext_len key out_buffer = some (out, r))
    (behind : out_buffer + (GCM_IV_SIZE + plaintext_len.toNat + GCM_TAG_SIZE) ≤ k) :
    out.toList.drop k = buf.toList.drop k ∧
      r.toNat ≤ GCM_IV_SIZE + plaintext_len.toNat + GCM_TAG_SIZE := by
  simp only [GCM_IV_SIZE, GCM_TAG_SIZE] at behind ⊢
  unfold encrypt at encrypted
  cases drawn : calls.ivRand with
  | none =>
      rw [drawn] at encrypted
      cases encrypted
      exact ⟨rfl, Nat.zero_le _⟩
  | some iv =>
      simp only [drawn, Option.bind_eq_bind, Option.bind_eq_some_iff] at encrypted
      obtain ⟨buf₁, write₁, encrypted⟩ := encrypted
      have same₁ : buf₁.toList.drop k = buf.toList.drop k :=
        write_drop write₁ (by rw [List.Vector.toList_length]; omega)
      split at encrypted
      · cases encrypted
        exact ⟨same₁, Nat.zero_le _⟩
      obtain ⟨keyBytes, -, encrypted⟩ := Option.bind_eq_some_iff.mp encrypted
      split at encrypted
      · cases encrypted
        exact ⟨same₁, Nat.zero_le _⟩
      simp only [Option.bind_eq_some_iff] at encrypted
      obtain ⟨plain, -, buf₂, write₂, encrypted⟩ := encrypted
      have length : (A.encryptUpdate keyBytes iv plain.toList).length = plaintext_len.toNat := by
        rw [A.encrypt_length, List.Vector.toList_length]
      have same₂ : buf₂.toList.drop k = buf.toList.drop k :=
        (write_drop write₂ (by simp only [GCM_IV_SIZE]; omega)).trans same₁
      split at encrypted
      · cases encrypted
        exact ⟨same₂, Nat.zero_le _⟩
      obtain ⟨buf₃, write₃, eq⟩ := Option.bind_eq_some_iff.mp encrypted
      cases eq
      refine ⟨(write_drop write₃ ?_).trans same₂, ?_⟩
      · simp only [List.Vector.toList_length, length, GCM_IV_SIZE]
        omega
      · simp only [length, GCM_IV_SIZE, GCM_TAG_SIZE]
        omega

theorem doEncrypt_drop {calls : EncryptCalls} {buf out : Bytes n} {dataSize : UInt32}
    {r : Except String UInt32} {k : Nat} (encrypted : doEncrypt A calls buf dataSize = some (out, r))
    (small : dataSize.toNat < 2 ^ 31) (behind : dataSize.toNat + 68 ≤ k) :
    out.toList.drop k = buf.toList.drop k := by
  unfold doEncrypt at encrypted
  split at encrypted
  · cases encrypted
    rfl
  cases drawn : calls.keyRand with
  | none =>
      rw [drawn] at encrypted
      cases encrypted
      rfl
  | some key =>
      simp only [drawn, Option.bind_eq_bind, Option.bind_eq_some_iff] at encrypted
      obtain ⟨buf₁, write₁, ⟨buf₂, encLen⟩, inner, encrypted⟩ := encrypted
      have same₁ : buf₁.toList.drop k = buf.toList.drop k :=
        write_drop write₁ (by rw [List.Vector.toList_length]; omega)
      have size : (int32 dataSize).toNat = dataSize.toNat := by
        rw [int32_of_lt small, Int.toNat_natCast]
      obtain ⟨same₂, bound⟩ := encrypt_drop A (k := k) inner
        (by simp only [size, KEYSIZE, GCM_IV_SIZE, GCM_TAG_SIZE]; omega)
      simp only [size, GCM_IV_SIZE, GCM_TAG_SIZE] at bound
      split at encrypted
      · cases encrypted
        exact same₂.trans same₁
      obtain ⟨buf₃, write₃, eq⟩ := Option.bind_eq_some_iff.mp encrypted
      cases eq
      refine (write_drop write₃ ?_).trans (same₂.trans same₁)
      simp only [List.length_replicate, KEYSIZE, PADDINGSIZE]
      omega

end FastAesGcm
end TransparentProxyNet
