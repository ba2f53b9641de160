import Mathlib.Algebra.Ring.Nat
import ShaderShrink.Proofs.Program.Coding

/-!
# Programs by their digests

A program is named by the digest of the bytes of its compact text (`Program.hashed`). Different
programs have different bytes (`Program.hashed_injective`): a compact text is read as the draft of
one value, whatever its nesting, and the draft is decoded as one program. The decoder that is meant
here is the one for values that were taken in whole; the decoder for texts, which gives up where a
text nests too deep, would say nothing of the programs that it does not read.

The hexadecimal digits show all of a digest (`Digest.sha256Hex_inj`), so the names of two programs
are the same exactly if the programs are, as long as their bytes do not collide
(`Program.digest_inj`).
-/

namespace ShaderShrink

/-! ## Bytes -/

/-- The bytes of an array, read one after another, are those that it holds. -/
theorem byteArray_toList (bytes : ByteArray) : bytes.toList = bytes.data.toList := by
  have hloop (i : Nat) (read : List UInt8) :
      ByteArray.toList.loop bytes i read = read.reverse ++ bytes.data.toList.drop i := by
    induction i, read using ByteArray.toList.loop.induct bytes with
    | case1 i read hi ih =>
      have hdrop : bytes.data.toList.drop i = bytes.get! i :: bytes.data.toList.drop (i + 1) := by
        rw [List.drop_eq_getElem_cons (by simpa using hi)]
        simp [ByteArray.get!, hi]
      rw [ByteArray.toList.loop, if_pos hi, ih, hdrop, List.reverse_cons, List.append_assoc]
      rfl
    | case2 i read hi =>
      rw [ByteArray.toList.loop, if_neg hi, List.drop_of_length_le (by simpa using hi),
        List.append_nil]
  rw [ByteArray.toList, hloop]
  rfl

namespace Digest

variable {n m width : Nat}

/-- Different digits have different characters. -/
theorem digitChar_inj (hn : n < 16) (hm : m < 16) (h : n.digitChar = m.digitChar) : n = m := by
  have hall : ∀ n < 16, ∀ m < 16, n.digitChar = m.digitChar → n = m := by decide
  exact hall n hn m hm h

/-- A number is known by its digits to base 16. -/
theorem eq_of_digits (hn : n < 16 ^ width) (hm : m < 16 ^ width)
    (h : ∀ i < width, n >>> (4 * i) % 16 = m >>> (4 * i) % 16) : n = m := by
  induction width generalizing n m with
  | zero => omega
  | succ width ih =>
    have hfirst : n % 16 = m % 16 := h 0 (Nat.succ_pos _)
    have hrest : n / 16 = m / 16 := by
      refine ih (by omega) (by omega) fun i hi => ?_
      have hi := h (i + 1) (Nat.succ_lt_succ hi)
      have hshift (k : Nat) : k >>> (4 * (i + 1)) = (k / 16) >>> (4 * i) := by
        rw [Nat.mul_succ, Nat.add_comm, Nat.shiftRight_add, Nat.shiftRight_eq_div_pow k 4]
      rwa [hshift, hshift] at hi
    omega

/-- Digits fill the width that is asked for. -/
theorem length_hex : (hex width n).toList.length = width := by simp [hex]

/-- Numbers of one width have different digits. -/
theorem hex_inj (hn : n < 16 ^ width) (hm : m < 16 ^ width) (h : hex width n = hex width m) :
    n = m := by
  refine eq_of_digits hn hm fun i hi => ?_
  rw [hex, hex, String.ofList_inj] at h
  have hdigits := List.map_inj_left.1 h i (List.mem_reverse.2 (List.mem_range.2 hi))
  exact digitChar_inj (Nat.mod_lt _ (by decide)) (Nat.mod_lt _ (by decide)) hdigits

/-- The digits of some words show the words. -/
theorem words_of_digits {xs ys : List UInt32} (hlen : xs.length = ys.length)
    (h : String.join (xs.map fun word => hex 8 word.toNat) =
      String.join (ys.map fun word => hex 8 word.toNat)) : xs = ys := by
  induction xs generalizing ys with
  | nil => exact (List.length_eq_zero_iff.1 hlen.symm).symm
  | cons x xs ih =>
    cases ys with
    | nil => cases hlen
    | cons y ys =>
      rw [List.map_cons, List.map_cons, String.join_cons, String.join_cons, ← String.toList_inj,
        String.toList_append, String.toList_append] at h
      obtain ⟨hword, hrest⟩ := List.append_inj h (by rw [length_hex, length_hex])
      have hlt (word : UInt32) : word.toNat < 16 ^ 8 := word.toNat_lt
      rw [UInt32.toNat_inj.1 (hex_inj (hlt x) (hlt y) (String.toList_inj.1 hword)),
        ih (Nat.succ.inj hlen) (String.toList_inj.1 hrest)]

/-- Hashes are told apart by their digits. -/
theorem sha256Hex_inj {x y : List UInt8} : sha256Hex x = sha256Hex y ↔ sha256 x = sha256 y :=
  ⟨words_of_digits rfl, fun h => by rw [sha256Hex, h, sha256Hex]⟩

end Digest

namespace Program

/-- The bytes that are hashed for the name of a program. -/
def hashed (p : Program) : List UInt8 := p.encode.toUTF8.toList

/-- The digest of a program is the hash of what is hashed of it. -/
theorem digest_eq (p : Program) : p.digest = "sha256:" ++ Digest.sha256Hex p.hashed := rfl

variable {p q : Program}

/-- Programs with the same compact text are the same. -/
theorem encode_injective (h : p.encode = q.encode) : p = q := by
  obtain ⟨_, -, hp⟩ := Json.readText_written (Json.written_compact p.toJson) p.legible_toJson
  obtain ⟨_, -, hq⟩ := Json.readText_written (Json.written_compact q.toJson) q.legible_toJson
  rw [encode, encode] at h
  rw [h, hq] at hp
  injection hp with hdraft
  have hread := p.reads_toJson .whole
  rw [← hdraft, q.reads_toJson .whole] at hread
  exact (Except.ok.inj hread).symm

/-- Programs with the same bytes are the same. -/
theorem hashed_injective : Function.Injective hashed := by
  intro p q h
  rw [hashed, hashed, byteArray_toList, byteArray_toList, Array.toList_inj] at h
  exact encode_injective (String.toByteArray_inj.1 (ByteArray.ext h))

/-- The names of programs are those of the same program, unless their bytes collide. -/
theorem digest_inj
    (h : Digest.sha256 p.hashed = Digest.sha256 q.hashed → p.hashed = q.hashed) :
    p.digest = q.digest ↔ p = q := by
  rw [digest_eq, digest_eq, String.append_right_inj, Digest.sha256Hex_inj]
  exact ⟨fun he => hashed_injective (h he), fun he => by rw [he]⟩

end Program

end ShaderShrink
