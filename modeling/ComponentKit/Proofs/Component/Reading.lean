import ComponentKit.Proofs.Component.Statements
import ComponentKit.Proofs.Source.Scan

/-!
# Reading generated lines

A generated line `Keeps` the mode of a reader: it closes its strings and has no comments, so that it leaves the
reader in the mode in which it has found it: in code, in a comment, and also in a string, even in one that its
quotes close and open again.
-/

namespace ComponentKit.Component

open Text Source

variable {kind : IndexedKind} {key type module collection : Text} {update : Registry.Update}

/-! ## Inert parts -/

theorem isInert_of_isAlphanum {c : Char} (hc : c.isAlphanum = true) : Mode.isInert c = true :=
  forall_isAlphanum (p := fun c => Mode.isInert c = true) (by decide) hc

theorem isInert_of_isKeyCharacter {c : Char} (hc : Name.isKeyCharacter c = true) : Mode.isInert c = true :=
  of_isKeyCharacter (fun _ => isInert_of_isAlphanum) (by decide) hc

theorem keeps_of_isAscii (ht : isAscii type) : Mode.Keeps type :=
  Mode.keeps_of_isInert fun c hc => isInert_of_isAlphanum (ht c hc)

theorem keeps_key (hk : ∀ c ∈ key, Name.isKeyCharacter c = true) : Mode.Keeps key :=
  Mode.keeps_of_isInert fun c hc => isInert_of_isKeyCharacter (hk c hc)

/-- Fixed words without marks. -/
theorem keeps_of_all {word : Text} (h : word.all Mode.isInert = true) : Mode.Keeps word :=
  Mode.keeps_of_isInert (List.all_eq_true.mp h)

/-! ## Lines -/

theorem keeps_registrationStatement (hc : isAscii collection) (hk : ∀ c ∈ key, Name.isKeyCharacter c = true)
    (ht : isAscii type) : Mode.Keeps (registrationStatement collection key type) := by
  have hsplit : registrationStatement collection key type = ("this.".toList ++ (collection ++ ".set(".toList))
      ++ (('\x27' :: (key ++ ['\x27'])) ++ (", new ".toList ++ (type ++ "());".toList))) := by
    simp [registrationStatement, concat]
  rw [hsplit]
  have hhead : Mode.Keeps ("this.".toList ++ (collection ++ ".set(".toList)) :=
    (keeps_of_all (by decide)).append ((keeps_of_isAscii hc).append (keeps_of_all (by decide)))
  have htail : Mode.Keeps (", new ".toList ++ (type ++ "());".toList)) :=
    (keeps_of_all (by decide)).append ((keeps_of_isAscii ht).append (keeps_of_all (by decide)))
  exact hhead.append ((keeps_key hk).quote.append htail)

theorem keeps_initializationStatement (hc : isAscii collection)
    (hk : ∀ c ∈ key, Name.isKeyCharacter c = true) :
    Mode.Keeps (initializationStatement collection key) := by
  have hsplit : initializationStatement collection key = ("this.".toList ++ (collection ++ ".get(".toList))
      ++ (('\x27' :: (key ++ ['\x27'])) ++ ")?.initialize?.();".toList) := by
    simp [initializationStatement, concat]
  rw [hsplit]
  have hhead : Mode.Keeps ("this.".toList ++ (collection ++ ".get(".toList)) :=
    (keeps_of_all (by decide)).append ((keeps_of_isAscii hc).append (keeps_of_all (by decide)))
  exact hhead.append ((keeps_key hk).quote.append (keeps_of_all (by decide)))

/-- The slash in the path of a module is no mark, because the name of the module follows. -/
theorem keeps_importStatement (ht : isAscii type) (hm : ∀ c ∈ module, Name.isKeyCharacter c = true)
    (hne : module ≠ []) : Mode.Keeps (importStatement type module) := by
  obtain ⟨c, module, rfl⟩ := List.exists_cons_of_ne_nil hne
  obtain ⟨hc, hm⟩ := List.forall_mem_cons.mp hm
  have hsplit : importStatement type (c :: module) = ("import \x7b ".toList ++ (type ++ " \x7d from ".toList))
      ++ (('\x27' :: ((['.'] ++ (['/', c] ++ (module ++ ".js".toList))) ++ ['\x27'])) ++ [';']) := by
    simp [importStatement, concat]
  rw [hsplit]
  have hhead : Mode.Keeps ("import \x7b ".toList ++ (type ++ " \x7d from ".toList)) :=
    (keeps_of_all (by decide)).append ((keeps_of_isAscii ht).append (keeps_of_all (by decide)))
  have hpath : Mode.Keeps (['.'] ++ (['/', c] ++ (module ++ ".js".toList))) :=
    (keeps_of_all (by decide)).append
      ((Mode.keeps_slash (isInert_of_isKeyCharacter hc)).append ((keeps_key hm).append (keeps_of_all (by decide))))
  exact hhead.append (hpath.quote.append (keeps_of_all (by decide)))

/-! ## Updates -/

/-- The lines of a generated update keep the mode of a reader. -/
theorem keeps_of_makes (h : Makes kind key update) : Mode.Keeps update.importLine ∧
    Mode.Keeps update.registrationLine ∧ Mode.Keeps update.initializationLine := by
  obtain ⟨hk, type, ht, rfl⟩ := h.eq_updateOf
  have hc := isAscii_directory kind
  have hmodule : key ++ kind.toKind.conventions.fileSuffix ≠ [] := by
    intro hnil
    have hsuffix : kind.toKind.conventions.fileSuffix ≠ [] := by cases kind <;> decide
    exact hsuffix (List.append_eq_nil_iff.mp hnil).2
  exact ⟨keeps_importStatement ht (isKeyCharacter_of_mem_module _ hk) hmodule,
    keeps_registrationStatement hc hk ht, keeps_initializationStatement hc hk⟩

end ComponentKit.Component
