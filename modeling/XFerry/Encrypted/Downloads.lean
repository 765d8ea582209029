/-
What the downloads of an encrypted file stream.

A generator is kept as what it yields and the exception it ends with, if any.  Reading
a file gives fewer bytes than asked for at its end only.
-/

import XFerry.Encrypted.Disk
import XFerry.Encrypted.TransferFormat

namespace XFerry.Encrypted

inductive StreamError where
  | os (message : String)
  | value (message : String)
  | transfer (error : TransferError)
deriving DecidableEq

structure Streamed where
  yielded : List Bytes
  failure : Option StreamError
deriving DecidableEq

namespace Streamed

def done : Streamed := { yielded := [], failure := none }

def failed (error : StreamError) : Streamed := { yielded := [], failure := some error }

def yielding (block : Bytes) (rest : Streamed) : Streamed :=
  { rest with yielded := block :: rest.yielded }

end Streamed

variable {Time : Type}

def openCompleteCiphertext (record : Record Time) (slot : Slot Time) : Option Bytes :=
  match slot.complete with
  | none => none
  | some data => if data.length ≠ record.manifest.ciphertextSize then none else some data

def readSize : Nat := 65536

/-- The loop of `_iter_ciphertext_range` over what is left of the file. -/
def readBlocks (rest : Bytes) (remaining : Nat) : Streamed :=
  if remaining = 0 then .done
  else
    let block := rest.take (min readSize remaining)
    if block = [] then .failed (.os "encrypted data is truncated")
    else .yielding block (readBlocks (rest.drop block.length) (remaining - block.length))
termination_by remaining
decreasing_by
  have some : 0 < (rest.take (min readSize remaining)).length := List.length_pos_iff.mpr ‹_›
  change remaining - (rest.take (min readSize remaining)).length < remaining
  omega

def iterCiphertextRange (data : Bytes) (offset length : Nat) : Streamed :=
  readBlocks (data.drop offset) length

theorem readBlocks_eq {rest : Bytes} {remaining : Nat} (inside : remaining ≤ rest.length) :
    (readBlocks rest remaining).failure = none ∧
      (readBlocks rest remaining).yielded.flatten = rest.take remaining := by
  induction remaining using Nat.strongRecOn generalizing rest with
  | ind remaining ih =>
    rw [readBlocks]
    by_cases finished : remaining = 0
    · rw [if_pos finished, finished, List.take_zero]
      exact ⟨rfl, rfl⟩
    have size : (rest.take (min readSize remaining)).length = min readSize remaining := by
      rw [List.length_take]
      omega
    have positive : 0 < readSize := by decide
    have nonempty : rest.take (min readSize remaining) ≠ [] := by
      rw [← List.length_pos_iff, size]
      omega
    rw [if_neg finished, if_neg nonempty, size]
    obtain ⟨failure, yielded⟩ :=
      ih (remaining - min readSize remaining) (by omega)
        (show remaining - min readSize remaining ≤
          (rest.drop (min readSize remaining)).length by rw [List.length_drop]; omega)
    refine ⟨failure, ?_⟩
    rw [Streamed.yielding, List.flatten_cons, yielded, ← List.take_add]
    congr 1
    omega

theorem iterCiphertextRange_eq {data : Bytes} {offset length : Nat}
    (inside : offset + length ≤ data.length) :
    (iterCiphertextRange data offset length).failure = none ∧
      (iterCiphertextRange data offset length).yielded.flatten = (data.drop offset).take length :=
  readBlocks_eq (by rw [List.length_drop]; omega)

/-- The loop of `_iter_decrypted_chunks` over the chunks that are left and what is left of
the file. -/
def decryptChunks (aead : Aead) (manifest : Manifest) (contentKey : Bytes) :
    List Nat → Bytes → Streamed
  | [], rest =>
    if rest ≠ [] then .failed (.os "encrypted data has trailing bytes") else .done
  | index :: later, rest =>
    let ciphertextLength := (manifest.plaintextLength index + eufGcmTagSize).toNat
    let ciphertext := rest.take ciphertextLength
    if ciphertext.length ≠ ciphertextLength then
      .failed (.os "encrypted data is truncated")
    else
      match decryptChunk aead ciphertext contentKey manifest index with
      | .error error => .failed (.transfer error)
      | .ok none => .failed (.value "encrypted chunk authentication failed")
      | .ok (some plaintext) =>
        .yielding plaintext
          (decryptChunks aead manifest contentKey later (rest.drop ciphertextLength))

def iterDecryptedChunks (aead : Aead) (data : Bytes) (manifest : Manifest) (contentKey : Bytes) :
    Streamed :=
  decryptChunks aead manifest contentKey (List.range manifest.chunkCount) data

end XFerry.Encrypted
