import ZeroTrust.Common.Transparent
import ZeroTrust.Data.PrefixCode
import ZeroTrust.Server.Handler

/-!
# The routing context of a file

The AAD of a file joins its id, its sender and its recipient with an unescaped delimiter,
and nothing keeps the delimiter out of a sender's name.  The context can still be read off:
a canonical id has a fixed length, and no name of a recipient holds the delimiter.

* `aadText_inj`: the text determines the context.
* `aad_unambiguous`: so do the octets, and a ciphertext opens in its own context only.
-/

namespace ZeroTrust
namespace Server

open Python

/-- No name on disk holds the delimiter of the AAD. -/
theorem delimiter_notMem_of_validUsername {name : PyStr} (h : validUsername (.str name) = true) :
    chr 124 ∉ name := by
  simp only [validUsername, decide_eq_true_eq, Bool.decide_and, Bool.and_eq_true] at h
  intro hmem
  have hchar : usernameChar (chr 124) = true := List.all_eq_true.mp h.2.2 _ hmem
  exact absurd hchar (by decide)

/-- **The text determines the context**: the id by its length, the recipient by the last
delimiter. -/
theorem aadText_inj {fileId fileId' sender sender' recipient recipient' : PyStr}
    (hid : isCanonicalUuid fileId = true) (hid' : isCanonicalUuid fileId' = true)
    (hname : validUsername (.str recipient) = true)
    (hname' : validUsername (.str recipient') = true)
    (h : aadText fileId sender recipient = aadText fileId' sender' recipient') :
    fileId = fileId' ∧ sender = sender' ∧ recipient = recipient' := by
  have hbar : py "|" = [chr 124] := rfl
  simp only [aadText, hbar, List.append_assoc, List.singleton_append] at h
  have hlen : fileId.length = fileId'.length :=
    (length_of_isCanonicalUuid hid).trans (length_of_isCanonicalUuid hid').symm
  obtain ⟨hfile, hrest⟩ := List.append_inj h hlen
  obtain ⟨hsender, hrecipient⟩ := Data.last_separator_inj
    (delimiter_notMem_of_validUsername hname) (delimiter_notMem_of_validUsername hname')
    (List.cons.inj hrest).2
  exact ⟨hfile, hsender, hrecipient⟩

/-- **The octets determine the context**, for any sender.  So a ciphertext that was made in the
context of one file is not authentic in the context of another, whatever the key and the nonce
that are tried. -/
theorem aad_unambiguous {P : Primitives}
    {fileId fileId' sender sender' recipient recipient' : PyStr} {aad aad' : Bytes}
    (hid : isCanonicalUuid fileId = true) (hid' : isCanonicalUuid fileId' = true)
    (hname : validUsername (.str recipient) = true)
    (hname' : validUsername (.str recipient') = true)
    (haad : aadBytes fileId sender recipient = .ok aad)
    (haad' : aadBytes fileId' sender' recipient' = .ok aad') :
    (aad = aad' → fileId = fileId' ∧ sender = sender' ∧ recipient = recipient') ∧
      (P.IdealAead → ¬ (fileId = fileId' ∧ sender = sender' ∧ recipient = recipient') →
        ∀ key nonce plaintext key' nonce' out,
          decryptFileBlob P key' nonce' (P.aesGcmEncrypt key nonce plaintext aad) fileId' sender'
            recipient' ≠ .ok out) := by
  have hinj : aad = aad' → fileId = fileId' ∧ sender = sender' ∧ recipient = recipient' := by
    rintro rfl
    exact aadText_inj hid hid' hname hname'
      (utf8Encode_inj (encodeText_eq_ok.mp haad) (encodeText_eq_ok.mp haad'))
  refine ⟨hinj, fun haead hother key nonce plaintext key' nonce' out hdec => ?_⟩
  obtain ⟨aad'', haad'', hopen⟩ := bind_eq_ok.mp hdec
  obtain rfl : aad' = aad'' := Except.ok.inj (haad'.symm.trans haad'')
  obtain ⟨-, -, hopen⟩ := (aesGcmDecrypt_eq_ok P).mp hopen
  obtain ⟨-, -, rfl⟩ := haead.opens_only _ _ _ _ _ _ _ _ hopen
  exact hother (hinj rfl)

/-- A canonical id. -/
def contextId : PyStr := py "5f1d1c3a-8a44-4c0e-9d5e-2b7f0c6e1d90"

/-- The AAD of a file from `a|b` for `c`. -/
def contextAad : Bytes := (aadText contextId (py "a|b") (py "c")).flatMap utf8Char

/-- What `a|b` encrypted for `c`. -/
def contextCiphertext : Bytes :=
  (Primitives.transparent []).aesGcmEncrypt (List.replicate 32 0) (List.replicate 12 0) [7]
    contextAad

/-- With its key and its nonce it opens as what it is, and not as a file that `a` sent to `c`. -/
theorem contextAad_opens_only :
    decryptFileBlob (.transparent []) (List.replicate 32 0) (List.replicate 12 0) contextCiphertext
      contextId (py "a|b") (py "c") = .ok [7] ∧
    decryptFileBlob (.transparent []) (List.replicate 32 0) (List.replicate 12 0) contextCiphertext
      contextId (py "a") (py "c") ≠ .ok [7] := by
  refine ⟨by decide +kernel, ?_⟩
  obtain ⟨-, hother⟩ := @aad_unambiguous (.transparent []) contextId contextId (py "a|b") (py "a")
    (py "c") (py "c") contextAad ((aadText contextId (py "a") (py "c")).flatMap utf8Char)
    (by decide) (by decide) (by decide) (by decide) (by decide) (by decide)
  exact hother transparent_idealAead (by decide) _ _ _ _ _ _

end Server
end ZeroTrust
