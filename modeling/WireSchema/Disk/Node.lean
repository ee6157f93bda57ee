/-!
# Files and directories

A node of a file system without symbolic links: a file with its bytes, or a directory with what is
in it. A place is the list of names that lead from one node to another. `look` is the view of a node that
later statements use: what lies at each place, without what is below it. `look_alter` says that a
change at one place shows at that place and below it only.
-/

namespace WireSchema.Disk

/-- The names that lead from a directory to something in it or below it. -/
abbrev Place := List String

/-- A file or a directory. -/
inductive Node where
  | file (bytes : List UInt8)
  | directory (entries : List (String × Node))
deriving Repr

/-- What lies at a place, without what is below it. -/
inductive Item where
  | file (bytes : List UInt8)
  | directory
deriving Repr, DecidableEq

/-! ## Entries of a directory -/

/-- Changes what lies under a name in a directory. -/
def setEntry (name : String) (node : Option Node) (entries : List (String × Node)) :
    List (String × Node) :=
  (node.map (name, ·)).toList ++ entries.filter (·.1 != name)

theorem lookup_filter_ne {name other : String} (h : other ≠ name)
    (entries : List (String × Node)) :
    (entries.filter (·.1 != name)).lookup other = entries.lookup other := by
  induction entries with
  | nil => rfl
  | cons e rest ih => grind

theorem lookup_filter_self (name : String) (entries : List (String × Node)) :
    (entries.filter (·.1 != name)).lookup name = none := by
  induction entries with
  | nil => rfl
  | cons e rest ih => grind

theorem lookup_setEntry (name other : String) (node : Option Node)
    (entries : List (String × Node)) :
    (setEntry name node entries).lookup other =
      if other = name then node else entries.lookup other := by
  cases node with
  | none =>
    by_cases h : other = name
    · simp [setEntry, h, lookup_filter_self]
    · simp [setEntry, h, lookup_filter_ne]
  | some n =>
    by_cases h : other = name
    · simp [setEntry, h]
    · simp [setEntry, h, List.lookup_cons, beq_false_of_ne h, lookup_filter_ne]

namespace Node

/-! ## Places -/

/-- What a node has under a name. -/
def child? : Node → String → Option Node
  | file _, _ => none
  | directory entries, name => entries.lookup name

/-- What lies at a place below a node. -/
def find? : Node → Place → Option Node
  | n, [] => some n
  | n, name :: rest => (n.child? name).bind (·.find? rest)

/-- Changes what lies at a place below a node, if its directory exists. -/
def alter (f : Option Node → Option Node) : Place → Node → Node
  | _, file bytes => file bytes
  | [], directory entries => directory entries
  | [name], directory entries => directory (setEntry name (f (entries.lookup name)) entries)
  | name :: next :: rest, directory entries =>
    match entries.lookup name with
    | none => directory entries
    | some n => directory (setEntry name (some (n.alter f (next :: rest))) entries)

/-- A node without what is below it. -/
def item : Node → Item
  | file bytes => .file bytes
  | directory _ => .directory

/-- What lies at a place below a node, without what is below that. -/
def look (n : Node) (place : Place) : Option Item := (n.find? place).map item

@[simp] theorem look_nil (n : Node) : n.look [] = some n.item := rfl

theorem look_cons (n : Node) (name : String) (rest : Place) :
    n.look (name :: rest) = (n.child? name).bind (·.look rest) := by
  rw [look, find?, Option.map_bind]
  rfl

theorem find?_append (n : Node) (place rest : Place) :
    n.find? (place ++ rest) = (n.find? place).bind (·.find? rest) := by
  induction place generalizing n with
  | nil => rfl
  | cons name place ih =>
    rw [List.cons_append, find?, find?]
    cases n.child? name with
    | none => rfl
    | some m => exact ih m

/-- A change shows at its place and below it only. -/
theorem look_alter (f : Option Node → Option Node) (name : String) (place other : Place) (n : Node)
    (h : n.look place = some .directory) :
    (n.alter f (place ++ [name])).look other =
      if place ++ [name] <+: other then
        (f (n.find? (place ++ [name]))).bind (·.look (other.drop (place.length + 1)))
      else n.look other := by
  induction place generalizing n other with
  | nil =>
    cases n with
    | file bytes => simp [item] at h
    | directory entries =>
      cases other with
      | nil => simp [alter, item]
      | cons x rest =>
        by_cases same : x = name
        · simp [alter, look_cons, child?, lookup_setEntry, same, find?]
        · simp [alter, look_cons, child?, lookup_setEntry, same, Ne.symm same]
  | cons first place ih =>
    cases n with
    | file bytes => simp [look_cons, child?] at h
    | directory entries =>
      rw [look_cons, child?] at h
      cases sub : entries.lookup first with
      | none => simp [sub] at h
      | some m =>
        rw [sub, Option.bind_some] at h
        -- Above its place the change goes into the entry on the way, which the hypothesis says is
        -- there.
        have changed : (directory entries).alter f (first :: place ++ [name]) =
            directory (setEntry first (some (m.alter f (place ++ [name]))) entries) := by
          cases place <;> simp [alter, sub]
        rw [changed]
        cases other with
        | nil => simp [item]
        | cons x rest =>
          by_cases same : x = first
          · subst same
            simp [look_cons, child?, lookup_setEntry, sub, find?, ih rest m h]
          · simp [look_cons, child?, lookup_setEntry, same, Ne.symm same]

end Node

end WireSchema.Disk
