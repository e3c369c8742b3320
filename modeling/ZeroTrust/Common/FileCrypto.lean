import ZeroTrust.Common.Primitives

/-!
# File encryption

`common/file_crypto.py` and `common/key_wrap.py`, as far as they draw no random bytes.  The
AAD of a file is its routing context; the program has three copies of its format, here, in
the server's handler and in the client's download.
-/

namespace ZeroTrust

open Python

/-- `f"{file_id}|{sender}|{recipient}"`. -/
def aadText (fileId sender recipient : PyStr) : PyStr :=
  fileId ++ py "|" ++ sender ++ py "|" ++ recipient

/-- `file_crypto._file_aad`. -/
def fileAad (fileId sender recipient : PyStr) : Except PyExn Bytes :=
  encodeText (aadText fileId sender recipient)

variable (P : Primitives)

/-- `decrypt_file_blob`. -/
def decryptFileBlob (aesKey nonce ciphertext : Bytes) (fileId sender recipient : PyStr) :
    Except PyExn Bytes := do
  let aad ← fileAad fileId sender recipient
  aesGcmDecrypt P aesKey nonce ciphertext aad

/-- `unwrap_aes_key`. -/
def unwrapAesKey (myPrivPem myPassword wrapped : Bytes) : Except PyExn Bytes :=
  rsaOaepDecrypt P myPrivPem myPassword wrapped

end ZeroTrust
