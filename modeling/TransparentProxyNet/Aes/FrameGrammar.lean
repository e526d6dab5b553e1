import TransparentProxyNet.Aes.FastAesGcm

/-! The byte strings that `doDecrypt` accepts are the frames of some plaintext with the
tag that belongs to them, and no others. -/
namespace TransparentProxyNet.FastAesGcm
open Buffer

section Grammar
variable (A : AesGcm) {n : Nat} {pt f : List UInt8}

/-- A frame of the plaintext `pt`; the padding may be any eight bytes. -/
def IsFrame (pt f : List UInt8) : Prop :=
  ∃ key iv padding, padding.length = PADDINGSIZE ∧
    f = frame key iv (A.encryptUpdate key iv pt) (A.tag key iv (A.encryptUpdate key iv pt)) padding

/-- The plaintext stands behind the key and the IV, and `out` is `buf` elsewhere. -/
structure Restored (buf out pt : List UInt8) : Prop where
  plain : (out.drop (KEYSIZE + GCM_IV_SIZE)).take pt.length = pt
  before : out.take (KEYSIZE + GCM_IV_SIZE) = buf.take (KEYSIZE + GCM_IV_SIZE)
  behind : out.drop (KEYSIZE + GCM_IV_SIZE + pt.length) =
    buf.drop (KEYSIZE + GCM_IV_SIZE + pt.length)

theorem isFrame_sealFrame (key : Bytes 32) (iv : Bytes 12) (pt : List UInt8) :
    IsFrame A pt (sealFrame A key iv pt) :=
  ⟨key, iv, List.replicate PADDINGSIZE 0, List.length_replicate, rfl⟩

variable {A} in
theorem IsFrame.length (framed : IsFrame A pt f) : f.length = pt.length + 68 := by
  obtain ⟨key, iv, padding, eight, rfl⟩ := framed
  rw [frame_length, A.encrypt_length, eight, PADDINGSIZE]

theorem take_append_drop_add (f : List UInt8) (i j : Nat) :
    (f.drop i).take j ++ f.drop (i + j) = f.drop i := by
  rw [← List.drop_drop]
  exact List.take_append_drop j (f.drop i)

/-- Every string that is long enough has the layout of a frame; only the tag can be
wrong. -/
theorem exists_frame (long : 68 ≤ f.length) :
    ∃ key iv cipher tag padding, padding.length = PADDINGSIZE ∧
      f = frame key iv cipher tag padding := by
  obtain ⟨m, total⟩ : ∃ m, f.length = m + 68 := Nat.exists_eq_add_of_le' long
  have keyLen : (f.take 32).length = 32 := by
    rw [List.length_take]
    omega
  have ivLen : ((f.drop 32).take 12).length = 12 := by
    rw [List.length_take, List.length_drop]
    omega
  have tagLen : ((f.drop (44 + m)).take 16).length = 16 := by
    rw [List.length_take, List.length_drop]
    omega
  refine ⟨⟨f.take 32, keyLen⟩, ⟨(f.drop 32).take 12, ivLen⟩, (f.drop 44).take m,
    ⟨(f.drop (44 + m)).take 16, tagLen⟩, f.drop (44 + m + 16), ?_, ?_⟩
  · rw [List.length_drop, PADDINGSIZE]
    omega
  · symm
    calc f.take 32 ++ (f.drop 32).take 12 ++ (f.drop 44).take m ++ (f.drop (44 + m)).take 16 ++
          f.drop (44 + m + 16)
        = f.take 32 ++ (f.drop 32).take 12 ++ (f.drop 44).take m ++ f.drop (44 + m) := by
          rw [List.append_assoc _ ((f.drop (44 + m)).take 16), take_append_drop_add]
      _ = f.take 32 ++ (f.drop 32).take 12 ++ f.drop 44 := by
          rw [List.append_assoc _ ((f.drop 44).take m), take_append_drop_add]
      _ = f.take 32 ++ f.drop 32 := by
          rw [List.append_assoc, show (44 : Nat) = 32 + 12 from rfl, take_append_drop_add]
      _ = f := List.take_append_drop 32 f

/-- What stands before and behind the plaintext is read off from the two layouts. -/
theorem restored_of_shape {buf out : List UInt8} {key : Bytes 32} {iv : Bytes 12}
    {cipher rest : List UInt8} (shape : buf = key.toList ++ iv.toList ++ cipher ++ rest)
    (shape' : out = key.toList ++ iv.toList ++ pt ++ rest) (same : cipher.length = pt.length) :
    Restored buf out pt := by
  have at44 : (key.toList ++ iv.toList).length = KEYSIZE + GCM_IV_SIZE := by
    rw [List.length_append, key.toList_length, iv.toList_length]
  have atRest : (key.toList ++ iv.toList ++ cipher).length = KEYSIZE + GCM_IV_SIZE + pt.length := by
    rw [List.length_append, at44, same]
  have atRest' : (key.toList ++ iv.toList ++ pt).length = KEYSIZE + GCM_IV_SIZE + pt.length := by
    rw [List.length_append, at44]
  constructor
  · rw [shape', List.append_assoc, List.drop_left' at44, List.take_left]
  · rw [shape, shape', List.append_assoc, List.append_assoc _ cipher, List.take_left' at44,
      List.take_left' at44]
  · rw [shape, shape', List.drop_left' atRest, List.drop_left' atRest']

/-- A frame is opened: the length of its plaintext is returned, and the plaintext
replaces the ciphertext. -/
theorem doDecrypt_of_isFrame {buf : Bytes n} {dataSize : UInt32}
    (framed : IsFrame A pt (buf.toList.take dataSize.toNat)) (inside : dataSize.toNat ≤ n)
    (small : dataSize.toNat < 2 ^ 31) :
    ∃ out, doDecrypt A .success buf dataSize = some (out, UInt32.ofNat pt.length) ∧
      pt.length + 68 = dataSize.toNat ∧ Restored buf.toList out.toList pt := by
  have total : pt.length + 68 = dataSize.toNat := by
    rw [← framed.length, List.length_take, List.Vector.toList_length]
    omega
  obtain ⟨key, iv, padding, -, content⟩ := framed
  have cipherLen := A.encrypt_length key iv pt
  have shape := (List.take_append_drop dataSize.toNat buf.toList).symm
  rw [content] at shape
  obtain ⟨out, decrypted, shape'⟩ :=
    doDecrypt_frame A shape (by rw [cipherLen, total]) (by rw [cipherLen, total]; exact small)
  rw [if_pos rfl, cipherLen] at decrypted
  rw [A.decrypt_encrypt] at shape'
  have before : buf.toList = key.toList ++ iv.toList ++ A.encryptUpdate key iv pt ++
      ((A.tag key iv (A.encryptUpdate key iv pt)).toList ++ padding ++
        buf.toList.drop dataSize.toNat) := by
    simpa only [frame, List.append_assoc] using shape
  exact ⟨out, decrypted, total,
    restored_of_shape before (by simpa only [List.append_assoc] using shape') cipherLen⟩

/-- Anything else is refused. -/
theorem doDecrypt_of_not_isFrame {buf : Bytes n} {dataSize : UInt32}
    (other : ∀ pt, ¬ IsFrame A pt (buf.toList.take dataSize.toNat)) (inside : dataSize.toNat ≤ n)
    (small : dataSize.toNat < 2 ^ 31) :
    ∃ out, doDecrypt A .success buf dataSize = some (out, -1) := by
  have size : (buf.toList.take dataSize.toNat).length = dataSize.toNat := by
    rw [List.length_take, List.Vector.toList_length]
    omega
  by_cases long : 68 ≤ dataSize.toNat
  · obtain ⟨key, iv, cipher, tag, padding, eight, content⟩ :=
      exists_frame (f := buf.toList.take dataSize.toNat) (by rw [size]; exact long)
    have total : dataSize.toNat = cipher.length + 68 := by
      rw [← size, content, frame_length, eight, PADDINGSIZE]
    have shape := (List.take_append_drop dataSize.toNat buf.toList).symm
    rw [content] at shape
    obtain ⟨out, decrypted, -⟩ := doDecrypt_frame A shape total (by rw [← total]; exact small)
    have wrong : tag ≠ A.tag key iv cipher := by
      intro same
      apply other (A.decryptUpdate key iv cipher)
      refine ⟨key, iv, padding, eight, ?_⟩
      rw [A.encrypt_decrypt, ← same]
      exact content
    rw [if_neg wrong] at decrypted
    exact ⟨out, decrypted⟩
  · have short : dataSize.toNat < 68 := not_le.mp long
    exact ⟨buf, if_pos short⟩

theorem ofNat_ne_neg_one {k : Nat} (small : k < 2 ^ 31) : UInt32.ofNat k ≠ -1 := by
  intro same
  have values := congrArg UInt32.toNat same
  rw [UInt32.toNat_ofNat_of_lt' (by simp only [UInt32.size]; omega)] at values
  have top : (-1 : UInt32).toNat = 2 ^ 32 - 1 := rfl
  omega

/-- `doEncrypt` of the plaintext at offset 44 of a buffer with room for the frame. -/
theorem doEncrypt_frame (key : Bytes 32) (iv : Bytes 12) {buf : Bytes n}
    (pos : 1 ≤ pt.length) (small : pt.length + 68 < 2 ^ 31) (room : pt.length + 68 ≤ n)
    (placed : (buf.toList.drop (KEYSIZE + GCM_IV_SIZE)).take pt.length = pt) :
    ∃ out, doEncrypt A (.success key iv) buf (UInt32.ofNat pt.length) =
        some (out, .ok (UInt32.ofNat (pt.length + 68))) ∧
      out.toList = sealFrame A key iv pt ++ buf.toList.drop (pt.length + 68) := by
  have shape :
      buf.toList = buf.toList.take 44 ++ pt ++ (buf.toList.drop (44 + pt.length)).take 24 ++
      buf.toList.drop (44 + pt.length + 24) := by
    symm
    calc buf.toList.take 44 ++ pt ++ (buf.toList.drop (44 + pt.length)).take 24 ++
          buf.toList.drop (44 + pt.length + 24)
        = buf.toList.take 44 ++ pt ++ buf.toList.drop (44 + pt.length) := by
          rw [List.append_assoc, take_append_drop_add]
      _ = buf.toList.take 44 ++ (pt ++ buf.toList.drop (44 + pt.length)) := List.append_assoc _ _ _
      _ = buf.toList.take 44 ++ buf.toList.drop 44 := by
          have joined := take_append_drop_add buf.toList 44 pt.length
          rw [show (buf.toList.drop 44).take pt.length = pt from placed] at joined
          rw [joined]
      _ = buf.toList := List.take_append_drop 44 buf.toList
  have headLen : (buf.toList.take 44).length = 44 := by
    rw [List.length_take, List.Vector.toList_length]
    omega
  have spareLen : ((buf.toList.drop (44 + pt.length)).take 24).length = 24 := by
    rw [List.length_take, List.length_drop, List.Vector.toList_length]
    omega
  have size : (UInt32.ofNat pt.length).toNat = pt.length :=
    UInt32.toNat_ofNat_of_lt' (by simp only [UInt32.size]; omega)
  obtain ⟨out, sealed, content⟩ := doEncrypt_success A key iv shape headLen spareLen size pos small
  refine ⟨out, sealed, ?_⟩
  rw [content, show 44 + pt.length + 24 = pt.length + 68 by omega]

end Grammar

/-- `doDecrypt` accepts exactly the frames: it returns something else than `-1` if and
only if the datagram is a frame of some plaintext, which it then restores in place;
and what `doEncrypt` makes of a plaintext is such a frame. -/
theorem accepts_exactly_frames (A : AesGcm) :
    (∀ {n : Nat} (buf : Bytes n) (dataSize : UInt32), dataSize.toNat ≤ n →
      dataSize.toNat < 2 ^ 31 →
      ∃ out r, doDecrypt A .success buf dataSize = some (out, r) ∧
        (r ≠ -1 ↔ ∃ pt, IsFrame A pt (buf.toList.take dataSize.toNat)) ∧
        ∀ pt, IsFrame A pt (buf.toList.take dataSize.toNat) →
          r.toNat = pt.length ∧ pt.length + 68 = dataSize.toNat ∧
          Restored buf.toList out.toList pt) ∧
    ∀ {n : Nat} (buf : Bytes n) (pt : List UInt8) (key : Bytes 32) (iv : Bytes 12),
      1 ≤ pt.length → pt.length + 68 < 2 ^ 31 → pt.length + 68 ≤ n →
      (buf.toList.drop (KEYSIZE + GCM_IV_SIZE)).take pt.length = pt →
      ∃ out, doEncrypt A (.success key iv) buf (UInt32.ofNat pt.length) =
          some (out, .ok (UInt32.ofNat (pt.length + 68))) ∧
        out.toList.take (pt.length + 68) = frame key iv (A.encryptUpdate key iv pt)
          (A.tag key iv (A.encryptUpdate key iv pt)) (List.replicate PADDINGSIZE 0) ∧
        out.toList.drop (pt.length + 68) = buf.toList.drop (pt.length + 68) ∧
        ∃ out', doDecrypt A .success out (UInt32.ofNat (pt.length + 68)) =
            some (out', UInt32.ofNat pt.length) ∧
          Restored out.toList out'.toList pt := by
  constructor
  · intro n buf dataSize inside small
    by_cases framed : ∃ pt, IsFrame A pt (buf.toList.take dataSize.toNat)
    · obtain ⟨pt, isFrame⟩ := framed
      obtain ⟨out, decrypted, total, restored⟩ := doDecrypt_of_isFrame A isFrame inside small
      refine ⟨out, _, decrypted, ⟨fun _ => ⟨pt, isFrame⟩, fun _ => ofNat_ne_neg_one (by omega)⟩, ?_⟩
      intro pt' isFrame'
      -- the same run opens the frame for both plaintexts
      obtain ⟨out', decrypted', total', restored'⟩ := doDecrypt_of_isFrame A isFrame' inside small
      have same : out = out' := by
        rw [decrypted] at decrypted'
        exact congrArg Prod.fst (Option.some.inj decrypted')
      subst same
      have length : (UInt32.ofNat pt.length).toNat = pt'.length := by
        rw [UInt32.toNat_ofNat_of_lt' (by simp only [UInt32.size]; omega)]
        omega
      exact ⟨length, total', restored'⟩
    · have other : ∀ pt, ¬ IsFrame A pt (buf.toList.take dataSize.toNat) := not_exists.mp framed
      obtain ⟨out, refused⟩ := doDecrypt_of_not_isFrame A other inside small
      exact ⟨out, -1, refused, ⟨fun accepted => absurd rfl accepted, fun h => absurd h framed⟩,
        fun pt isFrame => absurd isFrame (other pt)⟩
  · intro n buf pt key iv pos small room placed
    obtain ⟨out, sealed, content⟩ := doEncrypt_frame A key iv pos small room placed
    have atEnd : (sealFrame A key iv pt).length = pt.length + 68 := sealFrame_length A key iv pt
    have size : (UInt32.ofNat (pt.length + 68)).toNat = pt.length + 68 :=
      UInt32.toNat_ofNat_of_lt' (by simp only [UInt32.size]; omega)
    have frameOf : out.toList.take (pt.length + 68) = sealFrame A key iv pt := by
      rw [content, List.take_left' atEnd]
    have framed : IsFrame A pt (out.toList.take (UInt32.ofNat (pt.length + 68)).toNat) := by
      rw [size, frameOf]
      exact isFrame_sealFrame A key iv pt
    obtain ⟨out', decrypted, -, restored⟩ :=
      doDecrypt_of_isFrame A framed (by rw [size]; exact room) (by rw [size]; exact small)
    refine ⟨out, sealed, frameOf, ?_, out', decrypted, restored⟩
    rw [content, List.drop_left' atEnd]

end TransparentProxyNet.FastAesGcm
