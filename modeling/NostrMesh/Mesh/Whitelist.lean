/-
NostrMesh/Mesh/Whitelist.lean

The whitelist of the mesh: `add-storage-node.sh` and `remove-storage-node.sh`
keep the list `AllowedPublicKeys` of the Yggdrasil configuration and the
registry `nodes.json`, which says what to take off the list when a node is
removed.

What the list is for is said by `Register`: the key that was last registered
for each node.  `matches_exec_iff` says which runs of the scripts keep the
list equal to the registered keys, and `matchesThroughout_iff` carries it over
sequences of runs: they match throughout exactly if each run has the
condition `Keeps`.  Two kinds of runs do not: a node that gets a new key
leaves its old one on the list, and a key that is on the list already is not
recorded for a second node, which loses it when the first one is removed.
-/
import NostrMesh.Lib.Keyed
import Mathlib.Data.List.Induction
import Mathlib.Logic.Function.Basic

namespace NostrMesh.Mesh

/-! ### The two files -/

/-- `yggdrasil.conf`, as far as the whitelist goes, and `nodes.json`. -/
structure Files where
  allowedPublicKeys : List String
  nodes : List (String × String)
  deriving DecidableEq, Repr

/-- A whitelist and a registry with nothing in them. -/
def emptyFiles : Files := ⟨[], []⟩

/-- `[a-zA-Z0-9_]`. -/
def isNameChar (c : Char) : Bool := c.isAlphanum || c = '_'

/-- `grep -qE '^[a-zA-Z0-9_]+$'`: some line of the text consists of such
characters. -/
def isNodeName (text : String) : Bool :=
  (text.toList.splitOn '\n').any fun line => line ≠ [] && line.all isNameChar

/-- The node name of a run that gets past its checks. -/
structure NodeName where
  text : String
  valid : isNodeName text = true

/-- The value of `--pubkey`, which must not be empty. -/
structure PublicKey where
  text : String
  nonempty : text ≠ ""

/-- What the shell takes from `$(…)`: the output without the line ends behind
it. -/
def commandSubstitution (output : String) : String :=
  String.ofList (output.toList.reverse.dropWhile (· = '\n')).reverse

/-! ### The scripts -/

/-- A run of one of the scripts that succeeds. -/
inductive Run
  | add (name : NodeName) (key : PublicKey)
  | remove (name : NodeName)

namespace Files

variable (files : Files)

/-- `add-storage-node.sh` with `--pubkey`. -/
def addStorageNode (nodeName storagePubkey : String) : Files :=
  if storagePubkey ∈ files.allowedPublicKeys then
    -- "Key already in whitelist — skipping Yggdrasil update."
    files
  else
    { allowedPublicKeys := files.allowedPublicKeys ++ [storagePubkey]
      nodes := Keyed.upsert Prod.fst (nodeName, storagePubkey) (fun _ => (nodeName, storagePubkey))
        files.nodes }

/-- `STORED_KEY`, if it is not empty. -/
def storedKey (nodeName : String) : Option String :=
  ((Keyed.lookup Prod.fst nodeName files.nodes).map fun node =>
    commandSubstitution node.2).filter (· ≠ "")

/-- `remove-storage-node.sh`. -/
def removeStorageNode (nodeName : String) : Files :=
  match files.storedKey nodeName with
  | none => files
  | some storedKey =>
      { allowedPublicKeys := files.allowedPublicKeys.filter (· ≠ storedKey)
        nodes := Keyed.delete Prod.fst nodeName files.nodes }

end Files

/-- What a run does to the files. -/
def Run.exec (files : Files) : Run → Files
  | add name key => files.addStorageNode name.text key.text
  | remove name => files.removeStorageNode name.text

/-- The files after some runs, from empty ones. -/
def filesAfter (runs : List Run) : Files := runs.foldl Run.exec emptyFiles

/-! ### What the whitelist is for -/

/-- The key that is registered for each node name. -/
abbrev Register := String → Option String

/-- What a run means: the node gets the key, or is not there any more. -/
def Run.registers (register : Register) : Run → Register
  | add name key => Function.update register name.text (some key.text)
  | remove name => Function.update register name.text none

/-- The keys last registered for the names that were added and not removed
since. -/
def registerAfter (runs : List Run) : Register := runs.foldl Run.registers fun _ => none

/-- The whitelist is the set of the registered keys. -/
def Matches (files : Files) (register : Register) : Prop :=
  ∀ key, key ∈ files.allowedPublicKeys ↔ ∃ name, register name = some key

/-- Whitelist and registered keys match after each of the runs. -/
def MatchesThroughout (runs : List Run) : Prop :=
  ∀ done, done <+: runs → Matches (filesAfter done) (registerAfter done)

/-- Another node has the key. -/
def Register.Shares (register : Register) (name key : String) : Prop :=
  ∃ other, other ≠ name ∧ register other = some key

/-- The runs that keep whitelist and registered keys together.

* An added node has no other key before, or another node has that key.
* A removed node's key is the one that `nodes.json` gives for it and no other
  node has it; or another node has it, and `nodes.json` gives none that any
  other node has. -/
def Run.Keeps (files : Files) (register : Register) : Run → Prop
  | add name key => ∀ old, register name.text = some old → old ≠ key.text →
      register.Shares name.text old
  | remove name =>
      (∀ key, files.storedKey name.text = some key → ¬ register.Shares name.text key) ∧
        ∀ key, register name.text = some key → files.storedKey name.text ≠ some key →
          register.Shares name.text key

/-! ### One run -/

section

variable {files : Files} {register : Register} {name key : String}

/-- The whitelist after an addition, whichever branch it takes. -/
theorem mem_addStorageNode {k : String} :
    k ∈ (files.addStorageNode name key).allowedPublicKeys ↔ k ∈ files.allowedPublicKeys ∨ k = key := by
  rw [Files.addStorageNode]
  split
  · next hlisted =>
    constructor
    · exact Or.inl
    · rintro (hk | rfl)
      · exact hk
      · exact hlisted
  · simp

theorem mem_removeStorageNode {k : String} :
    k ∈ (files.removeStorageNode name).allowedPublicKeys ↔
      k ∈ files.allowedPublicKeys ∧ files.storedKey name ≠ some k := by
  rw [Files.removeStorageNode]
  split
  · next hnone => simp [hnone]
  · next storedKey hsome =>
    rw [List.mem_filter, decide_eq_true_eq, hsome, ne_eq, ne_eq, Option.some.injEq, eq_comm (a := k)]

/-- A registered key is that of the given node, or another node has it. -/
theorem exists_register_iff (register : Register) (name : String) {k : String} :
    (∃ other, register other = some k) ↔ register name = some k ∨ register.Shares name k := by
  constructor
  · rintro ⟨other, hother⟩
    rcases eq_or_ne other name with rfl | hne
    · exact Or.inl hother
    · exact Or.inr ⟨other, hne, hother⟩
  · rintro (hname | ⟨other, -, hother⟩)
    · exact ⟨name, hname⟩
    · exact ⟨other, hother⟩

/-- The keys that are registered once the node has a new value. -/
theorem exists_update_iff {k : String} (value : Option String) :
    (∃ other, Function.update register name value other = some k) ↔
      value = some k ∨ register.Shares name k := by
  rw [exists_register_iff _ name, Function.update_self]
  refine or_congr_right (exists_congr fun other => and_congr_right fun hne => ?_)
  rw [Function.update_of_ne hne]

/-- **Which runs keep them together.** -/
theorem matches_exec_iff (h : Matches files register) (run : Run) :
    Matches (run.exec files) (run.registers register) ↔ run.Keeps files register := by
  cases run with
  | add name key =>
      have hstep : ∀ k, k ∈ ((Run.add name key).exec files).allowedPublicKeys ↔
          (register name.text = some k ∨ register.Shares name.text k) ∨ k = key.text := fun k => by
        rw [Run.exec, mem_addStorageNode, h k, exists_register_iff register name.text]
      simp only [Matches, hstep, Run.registers, exists_update_iff, Run.Keeps, Option.some.injEq]
      -- the node's old key stays on the list, so another node has to have it
      constructor
      · intro hmatch old hold hne
        exact ((hmatch old).mp (Or.inl (Or.inl hold))).resolve_left fun heq => hne heq.symm
      · intro hkeeps k
        constructor
        · rintro ((hold | hshared) | rfl)
          · by_cases hk : k = key.text
            · exact Or.inl hk.symm
            · exact Or.inr (hkeeps k hold hk)
          · exact Or.inr hshared
          · exact Or.inl rfl
        · rintro (rfl | hshared)
          · exact Or.inr rfl
          · exact Or.inl (Or.inr hshared)
  | remove name =>
      have hstep : ∀ k, k ∈ ((Run.remove name).exec files).allowedPublicKeys ↔
          (register name.text = some k ∨ register.Shares name.text k) ∧
            files.storedKey name.text ≠ some k := fun k => by
        rw [Run.exec, mem_removeStorageNode, h k, exists_register_iff register name.text]
      simp only [Matches, hstep, Run.registers, exists_update_iff, Run.Keeps, reduceCtorEq, false_or]
      -- the key in `nodes.json` leaves the list, whoever else has it
      constructor
      · intro hmatch
        refine ⟨fun k hstored hshared => ((hmatch k).mpr hshared).2 hstored, fun k hk hstored => ?_⟩
        exact (hmatch k).mp ⟨Or.inl hk, hstored⟩
      · rintro ⟨hstored, hleft⟩ k
        constructor
        · rintro ⟨hk | hshared, hne⟩
          · exact hleft k hk hne
          · exact hshared
        · exact fun hshared => ⟨Or.inr hshared, fun heq => hstored k heq hshared⟩

end

/-! ### Sequences of runs -/

theorem filesAfter_concat (runs : List Run) (run : Run) :
    filesAfter (runs ++ [run]) = run.exec (filesAfter runs) := by
  rw [filesAfter, List.foldl_append]
  rfl

theorem registerAfter_concat (runs : List Run) (run : Run) :
    registerAfter (runs ++ [run]) = run.registers (registerAfter runs) := by
  rw [registerAfter, List.foldl_append]
  rfl

/-- Nothing is allowed and nothing is registered. -/
theorem matches_nil : Matches (filesAfter []) (registerAfter []) := by
  intro key
  simp [filesAfter, registerAfter, emptyFiles]

/-- One more run. -/
theorem matchesThroughout_concat (runs : List Run) (run : Run) :
    MatchesThroughout (runs ++ [run]) ↔
      MatchesThroughout runs ∧ run.Keeps (filesAfter runs) (registerAfter runs) := by
  constructor
  · intro h
    have hbefore : MatchesThroughout runs := fun done hdone =>
      h done (hdone.trans (List.prefix_append runs [run]))
    refine ⟨hbefore, (matches_exec_iff (hbefore runs List.prefix_rfl) run).mp ?_⟩
    rw [← filesAfter_concat, ← registerAfter_concat]
    exact h _ List.prefix_rfl
  · rintro ⟨hbefore, hkeeps⟩ done hdone
    rcases List.prefix_concat_iff.mp hdone with rfl | hdone
    · rw [filesAfter_concat, registerAfter_concat]
      exact (matches_exec_iff (hbefore runs List.prefix_rfl) run).mpr hkeeps
    · exact hbefore done hdone

/-- **The whitelist matches the registered nodes** after each of the runs
exactly if each run keeps the two together. -/
theorem matchesThroughout_iff (runs : List Run) : MatchesThroughout runs ↔
    ∀ done run, done ++ [run] <+: runs → run.Keeps (filesAfter done) (registerAfter done) := by
  induction runs using List.reverseRecOn with
  | nil =>
      refine iff_of_true (fun done hdone => ?_) fun done run hruns => ?_
      · rw [List.prefix_nil.mp hdone]
        exact matches_nil
      · exact absurd (List.prefix_nil.mp hruns) (by simp)
  | append_singleton runs run ih =>
      rw [matchesThroughout_concat, ih]
      constructor
      · rintro ⟨hbefore, hlast⟩ done run' hruns
        rcases List.prefix_concat_iff.mp hruns with heq | hruns
        · obtain ⟨rfl, hrun⟩ := List.append_inj' heq rfl
          rwa [List.singleton_inj.mp hrun]
        · exact hbefore done run' hruns
      · intro h
        exact ⟨fun done run' hruns => h done run' (hruns.trans (List.prefix_append runs [run])),
          h runs run List.prefix_rfl⟩

/-! ### Runs that do not -/

def node1 : NodeName := ⟨"node1", by decide +kernel⟩

def node2 : NodeName := ⟨"node2", by decide +kernel⟩

def firstKey : PublicKey := ⟨"aabb", by decide⟩

def secondKey : PublicKey := ⟨"ccdd", by decide⟩

/-- **A new key**: the old one stays on the list.  **A shared key**: the node
that is still there loses it. -/
theorem not_matchesThroughout_rekeyed :
    ¬ MatchesThroughout [.add node1 firstKey, .add node1 secondKey] ∧
      ¬ MatchesThroughout [.add node1 firstKey, .add node2 firstKey, .remove node1] := by
  constructor
  · intro h
    obtain ⟨name, hname⟩ := (h _ List.prefix_rfl "aabb").mp (by decide +kernel)
    rcases eq_or_ne name "node1" with rfl | hne
    · exact absurd hname (by decide +kernel)
    · simp [registerAfter, Run.registers, node1, Function.update_of_ne hne] at hname
  · intro h
    have hlost : "aabb" ∉ (filesAfter [.add node1 firstKey, .add node2 firstKey,
        .remove node1]).allowedPublicKeys := by decide +kernel
    exact hlost ((h _ List.prefix_rfl "aabb").mpr ⟨"node2", by decide +kernel⟩)

end NostrMesh.Mesh
