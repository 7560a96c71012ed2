import RelayLifeline.Lib.Trim

/-!
# Space around bytes

`bytes.TrimSpace`, which reads the bytes as UTF-8.
-/

namespace RelayLifeline.Bytes

/-- What `unicode.IsSpace` holds of, as UTF-8. -/
def spaces : List (List UInt8) :=
  [[9], [10], [11], [12], [13], [32], [0xC2, 0x85], [0xC2, 0xA0], [0xE1, 0x9A, 0x80],
    [0xE2, 0x80, 0x80], [0xE2, 0x80, 0x81], [0xE2, 0x80, 0x82], [0xE2, 0x80, 0x83],
    [0xE2, 0x80, 0x84], [0xE2, 0x80, 0x85], [0xE2, 0x80, 0x86], [0xE2, 0x80, 0x87],
    [0xE2, 0x80, 0x88], [0xE2, 0x80, 0x89], [0xE2, 0x80, 0x8A], [0xE2, 0x80, 0xA8],
    [0xE2, 0x80, 0xA9], [0xE2, 0x80, 0xAF], [0xE2, 0x81, 0x9F], [0xE3, 0x80, 0x80]]

def trimSpace (s : List UInt8) : List UInt8 := Lib.Trim.trim spaces s

theorem nil_notMem_spaces : [] ∉ spaces := by decide

/-- The whitespace of JSON separates. -/
theorem separator_of_mem {b : UInt8} (h : b ∈ [32, 9, 10, 13]) :
    Lib.Trim.Separator spaces b := by
  simp only [List.mem_cons, List.not_mem_nil, or_false] at h
  rcases h with rfl | rfl | rfl | rfl
  · exact ⟨by decide, by decide⟩
  · exact ⟨by decide, by decide⟩
  · exact ⟨by decide, by decide⟩
  · exact ⟨by decide, by decide⟩

end RelayLifeline.Bytes
