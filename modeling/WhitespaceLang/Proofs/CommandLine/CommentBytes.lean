import WhitespaceLang.Proofs.CommandLine.Sources
import WhitespaceLang.Proofs.Source.SymbolBytes

/-!
Files whose bytes differ in comments. The decoder may make what it likes of the bytes in between,
but the symbols of the text are the significant bytes of the file, and nothing else of a text is run
or listed.
-/

namespace WhitespaceLang
namespace CommandLine

theorem runText_symbols (fuel : Nat) (verbose : Bool) (t : Text) (input : Input) :
    runText fuel verbose t input = runText fuel verbose (Symbol.source t.symbols) input := by
  simp only [runText, Flow.load, Lexer.ofText, Text.symbols_source]

section Bytes

variable {name : Text} {bytes : List UInt8} {read : FileReader}

theorem run_bytes (hname : IsFileName name) (hread : read name = .ok bytes) (fuel : Nat)
    (stdin : List UInt8) :
    run fuel [name] read stdin =
      runText fuel false (Symbol.source (bytes.filterMap Symbol.ofByte?)) (.ofBytes stdin) := by
  rw [run_program hname hread, runText_symbols, Text.symbols_decodeReplacing]

theorem list_bytes (hname : IsFileName name) (hread : read name = .ok bytes) (fuel : Nat)
    (stdin : List UInt8) :
    run fuel ["--pseudo", name] read stdin =
      some (listText (Symbol.source (bytes.filterMap Symbol.ofByte?))) := by
  rw [run_listed hname hread, listText_symbols, Text.symbols_decodeReplacing]

end Bytes

/-- Files with the same spaces, tabs and line feeds are run and listed alike, whether or not the
other bytes of either can be decoded. -/
theorem comment_bytes {name : Text} {read₁ read₂ : FileReader} {bytes₁ bytes₂ : List UInt8}
    (hname : IsFileName name) (h₁ : read₁ name = .ok bytes₁) (h₂ : read₂ name = .ok bytes₂)
    (h : bytes₁.filter Utf8.isSignificant = bytes₂.filter Utf8.isSignificant) (fuel : Nat)
    (stdin : List UInt8) :
    let source := Symbol.source ((bytes₁.filter Utf8.isSignificant).filterMap Symbol.ofByte?)
    run fuel [name] read₁ stdin = runText fuel false source (.ofBytes stdin) ∧
      run fuel [name] read₂ stdin = run fuel [name] read₁ stdin ∧
      run fuel ["--pseudo", name] read₁ stdin = some (listText source) ∧
      run fuel ["--pseudo", name] read₂ stdin = run fuel ["--pseudo", name] read₁ stdin := by
  have hsymbols : bytes₂.filterMap Symbol.ofByte? = bytes₁.filterMap Symbol.ofByte? := by
    rw [← Symbol.filterMap_ofByte? bytes₂, ← h, Symbol.filterMap_ofByte?]
  simp only [Symbol.filterMap_ofByte?, run_bytes hname h₁, run_bytes hname h₂, list_bytes hname h₁,
    list_bytes hname h₂, hsymbols, and_self]

/-- The instruction that ends a program, with characters around its bytes that are cut short, too
long, of a surrogate or none. -/
theorem comment_bytes_of_broken_characters :
    let read (bytes : List UInt8) : FileReader := fun _ => .ok bytes
    let plain := read [0x0A, 0x0A, 0x0A]
    let broken := read [0xE2, 0x82, 0x0A, 0xC0, 0x8A, 0xF0, 0x0A, 0xED, 0xA0, 0xA0, 0x0A, 0xFF]
    run 1 ["exit.ws"] broken [] = run 1 ["exit.ws"] plain [] ∧
      run 1 ["--pseudo", "exit.ws"] broken [] = some (listText "\n\n\n") := by
  intro read plain broken
  have hname : IsFileName "exit.ws" := isFileName_of_all ⟨_, _, rfl, by decide⟩ (by decide)
  have hplain : plain "exit.ws" = .ok _ := rfl
  have hbroken : broken "exit.ws" = .ok _ := rfl
  obtain ⟨-, hrun, hlist, hlisted⟩ := comment_bytes hname hplain hbroken (by decide) 1 []
  exact ⟨hrun, hlisted.trans hlist⟩

end CommandLine
end WhitespaceLang
