/-!
# File trees

The files and directories of a machine, each at its place, with the time of its last
change. A place holds one thing at a time; `get?` is the view through which every change
of a tree is described.
-/

namespace Tracepoint

/-- The place of a file or directory: the names on the way to it from the root. -/
abbrev Location := List String

instance (priority := high) instDecidableEqContent : DecidableEq ByteArray :=
  ByteArray.instDecidableEq

/-- What stands at a place. -/
inductive Node where
  | file (content : ByteArray) (modified : Int)
  | dir (modified : Int)
  deriving DecidableEq

namespace Node

/-- Whether this is a file. -/
def isFile : Node → Bool
  | file _ _ => true
  | dir _ => false

/-- Whether this is a directory. -/
def isDir : Node → Bool
  | file _ _ => false
  | dir _ => true

/-- The time of the last change. -/
def modified : Node → Int
  | file _ time | dir time => time

end Node

/-- The files and directories of a machine. -/
structure FileTree where
  entries : List (Location × Node)
  distinct : (entries.map Prod.fst).Nodup
  deriving DecidableEq

namespace FileTree

/-- The tree with nothing but its root. -/
def root (time : Int) : FileTree :=
  ⟨[([], .dir time)], by simp⟩

/-- What stands at a place. -/
def get? (t : FileTree) (l : Location) : Option Node :=
  t.entries.lookup l

/-- The tree with only those places that have a property. -/
def filter (t : FileTree) (keep : Location → Bool) : FileTree :=
  ⟨t.entries.filter fun e => keep e.1,
    t.distinct.sublist (List.filter_sublist.map _)⟩

/-- The tree with a place cleared. -/
def erase (t : FileTree) (l : Location) : FileTree :=
  t.filter fun m => m ≠ l

/-- The tree with a place and everything below it cleared. -/
def eraseBelow (t : FileTree) (l : Location) : FileTree :=
  t.filter fun m => !l.isPrefixOf m

/-- The tree with something put in a place. -/
def set (t : FileTree) (l : Location) (n : Node) : FileTree :=
  ⟨(l, n) :: (t.erase l).entries, by
    refine List.nodup_cons.2 ⟨fun h => ?_, (t.erase l).distinct⟩
    obtain ⟨e, he, rfl⟩ := List.mem_map.1 h
    simpa using (List.mem_filter.1 he).2⟩

/-- The tree in which a directory was changed at a time. -/
def touch (t : FileTree) (l : Location) (time : Int) : FileTree :=
  match t.get? l with
  | some (.dir _) => t.set l (.dir time)
  | _ => t

/-- The tree with a directory at a place and above it, wherever there was nothing. -/
def makeWay (t : FileTree) (l : Location) (time : Int) : FileTree :=
  (List.range (l.length + 1)).foldl (fun t n =>
    if (t.get? (l.take n)).isSome then t else t.set (l.take n) (.dir time)) t

/-- The tree with something put in a place, below directories. -/
def plant (t : FileTree) (l : Location) (n : Node) (time : Int) : FileTree :=
  (t.makeWay l.dropLast time).set l n

/-- The names in a directory. -/
def names (t : FileTree) (l : Location) : List String :=
  t.entries.filterMap fun e => if e.1.dropLast = l then e.1.getLast? else none

theorem get?_filter (t : FileTree) (keep : Location → Bool) (l : Location) :
    (t.filter keep).get? l = if keep l then t.get? l else none := by
  obtain ⟨es, hd⟩ := t
  simp only [filter, get?]
  clear hd
  induction es with
  | nil => simp
  | cons e es ih =>
    obtain ⟨m, n⟩ := e
    by_cases hm : l = m
    · subst hm
      cases hk : keep l
      · simpa [hk] using ih
      · simp [hk]
    · have hb : (l == m) = false := by simpa using hm
      cases hk : keep m
      · simpa [hk, List.lookup_cons, hb] using ih
      · simpa [hk, List.lookup_cons, hb] using ih

@[simp] theorem get?_set (t : FileTree) (l m : Location) (n : Node) :
    (t.set l n).get? m = if m = l then some n else t.get? m := by
  by_cases h : m = l
  · subst h
    simp [set, get?]
  · have hb : (m == l) = false := by simpa using h
    have he : (t.erase l).get? m = t.get? m := by simp [erase, get?_filter, h]
    simp only [set, get?, List.lookup_cons, hb, h, if_false]
    exact he

@[simp] theorem get?_erase (t : FileTree) (l m : Location) :
    (t.erase l).get? m = if m = l then none else t.get? m := by
  by_cases h : m = l <;> simp [erase, get?_filter, h]

@[simp] theorem get?_eraseBelow (t : FileTree) (l m : Location) :
    (t.eraseBelow l).get? m = if l.isPrefixOf m then none else t.get? m := by
  cases h : l.isPrefixOf m <;> simp [eraseBelow, get?_filter, h]

end FileTree

end Tracepoint
