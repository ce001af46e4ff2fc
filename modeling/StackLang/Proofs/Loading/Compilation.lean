import StackLang.Compilation
import StackLang.Proofs.Lexeme.Recognised
import StackLang.Proofs.Loading.Program

/-!
# Compilations that are loaded

The bytecode text of any source, however malformed, is loaded.  The program is the
assembled one, and its variables are those that the source declares, followed by one
for every label.
-/

namespace StackLang

namespace SymbolTable

/-- Symbols with new keys are added at the end. -/
theorem toList_insertAll {table : SymbolTable} {symbols : List Symbol}
    (fresh : (table.keys ++ symbols.map Symbol.key).Nodup) :
    (table.insertAll symbols).toList = table.toList ++ symbols := by
  induction symbols generalizing table with
  | nil => exact (List.append_nil _).symm
  | cons symbol rest ih =>
      cases added : table.insert? symbol with
      | none =>
          have present : symbol.key ∈ table.keys := by
            rw [insert?_eq_none_iff, contains, OrderedMap.contains,
              Option.isSome_iff_exists] at added
            obtain ⟨entry, found⟩ := added
            exact OrderedMap.mem_keys_of_get? found
          exact absurd rfl ((List.nodup_append.mp fresh).2.2 _ present _ List.mem_cons_self)
      | some after =>
          have later : (after.insertAll rest).toList = after.toList ++ rest := by
            apply ih
            rw [keys_of_insert? added, List.append_assoc]
            exact fresh
          rw [insertAll, List.foldl_cons, added, Option.getD_some]
          calc
            (after.insertAll rest).toList = table.toList ++ [symbol] ++ rest := by
              rw [later, toList_of_insert? added]
            _ = table.toList ++ symbol :: rest := by rw [List.append_assoc]; rfl

end SymbolTable

/-- The labels of an assembly have keys of their own. -/
theorem Assembly.Readable.labelSymbols_fresh {listing : Listing} {symbols : SymbolTable}
    (readable : Readable listing symbols) :
    (symbols.keys ++ (ofListing listing symbols).labelSymbols.map Symbol.key).Nodup := by
  rw [List.nodup_append]
  refine ⟨symbols.entries.distinct, ?_, ?_⟩
  · have names : (ofListing listing symbols).labelSymbols.map Symbol.key =
        (listing.resolve.entries.map Prod.fst).map fun name => ⟨globalScope, name⟩ := by
      rw [labelSymbols, List.map_map, List.map_map]
      rfl
    rw [names]
    apply List.Nodup.map _ listing.resolve.distinct
    intro first second same
    exact (SymbolKey.mk.inj same).2
  · intro key declared other label same
    rw [← symbols.toList_keys] at declared
    obtain ⟨symbol, listed, rfl⟩ := List.mem_map.mp declared
    rw [labelSymbols, List.map_map] at label
    obtain ⟨entry, placed, rfl⟩ := List.mem_map.mp label
    obtain ⟨⟨number, made⟩, -⟩ := readable.label placed
    have name : symbol.name = labelName number := (SymbolKey.mk.inj same).2.trans made
    exact labelName_hidden number (name ▸ (readable.names symbol listed).1.plain)

namespace Compilation

/-- The assembly of any tokens that the scanner makes can be read back. -/
theorem readable {tokens : List Token} (recognised : ∀ token ∈ tokens, Lexeme.Recognised token)
    (small : (ofTokens tokens).assembly.instructions.length < 2 ^ 63) :
    Assembly.Readable (Program.ofTokens tokens).program.lower.listing
      (Program.ofTokens tokens).program.analyze.symbols := by
  apply Program.readable _ (Program.ofTokens_loose tokens)
  · exact TreeStandard.loose_scanned recognised
  · have length : (ofTokens tokens).assembly.instructions.length =
        Listing.size (Program.ofTokens tokens).program.lower.listing + 1 := List.length_append
    exact length ▸ small

/-- The bytecode of any source is loaded back: the program is the assembled one, and
the variables are the declared ones, each name once, and one for every label.  Numbers
of labels are written with 64 bits, which a program must not be too long for. -/
theorem load_bytecode (source : String)
    (small : (ofTokens (tokenize source)).assembly.instructions.length < 2 ^ 63) :
    ∃ image declared,
      Image.load (ofTokens (tokenize source)).bytecode = .ok image ∧
      image.program.toList = (ofTokens (tokenize source)).assembly.instructions ∧
      (ofTokens (tokenize source)).symbols.toList =
        declared ++ (ofTokens (tokenize source)).assembly.labelSymbols ∧
      image.environment.toList = SymbolTable.declaredVariables declared ++
        labelVariables (ofTokens (tokenize source)).assembly.labels.entries := by
  have readable := readable (tokenize_recognised source) small
  obtain ⟨image, loaded, program, environment⟩ := Image.load_ofListing readable
  refine ⟨image, (Program.ofTokens (tokenize source)).program.analyze.symbols.toList, loaded, ?_⟩
  refine ⟨by rw [program]; rfl, SymbolTable.toList_insertAll readable.labelSymbols_fresh, ?_⟩
  rw [environment, SymbolTable.environment_toList]
  rfl

/-- A class whose name `x` is declared twice, with a string that looks like a line of
bytecode. -/
theorem load_bytecode_redeclared :
    let source := "class A \x7b int x; void f(char x) \x7b while (x == ',') println(\"@ 1, #\"); \x7d \x7d"
    (ofTokens (tokenize source)).assembly.instructions.length < 2 ^ 63 ∧
      ∃ image declared,
        Image.load (ofTokens (tokenize source)).bytecode = .ok image ∧
        image.program.toList = (ofTokens (tokenize source)).assembly.instructions ∧
        (ofTokens (tokenize source)).symbols.toList =
          declared ++ (ofTokens (tokenize source)).assembly.labelSymbols ∧
        image.environment.toList = SymbolTable.declaredVariables declared ++
          labelVariables (ofTokens (tokenize source)).assembly.labels.entries := by
  intro source
  have small : (ofTokens (tokenize source)).assembly.instructions.length < 2 ^ 63 := by
    decide +kernel
  exact ⟨small, load_bytecode source small⟩

end Compilation

end StackLang
