import MailMerge.Archive.Huffman

/-!
# Lengths of code words

The lengths of the words of a prefix code that makes symbols of given frequencies
shortest in all. The two rarest nodes are joined again and again until one is left; of
equally frequent nodes the symbols are taken before the joined ones. Words that come out
longer than allowed are shortened at the cost of others.

* `joinNodes` joins nodes and gives the depths of the symbols;
* `limitLengths` shortens the words that are too long;
* `codeLengths` gives each symbol its length: the more frequent, the shorter.
-/

namespace MailMerge

/-- A **node** of a code tree under construction: its frequency, and the depths of the
symbols below it. -/
structure CodeNode where
  frequency : Nat
  depths : List Nat

/-- The node above two nodes. -/
def CodeNode.join (a b : CodeNode) : CodeNode :=
  ⟨a.frequency + b.frequency, (a.depths ++ b.depths).map (· + 1)⟩

/-- Takes the rarest node of two rising lists; the first list is preferred. -/
def takeRarest : List CodeNode → List CodeNode → Option (CodeNode × List CodeNode × List CodeNode)
  | [], [] => none
  | a :: as, [] => some (a, as, [])
  | [], b :: bs => some (b, [], bs)
  | a :: as, b :: bs =>
    if b.frequency < a.frequency then some (b, a :: as, bs) else some (a, as, b :: bs)

theorem length_takeRarest {as bs cs ds : List CodeNode} {node : CodeNode}
    (h : takeRarest as bs = some (node, cs, ds)) :
    cs.length + ds.length + 1 = as.length + bs.length := by
  unfold takeRarest at h
  split at h
  · simp at h
  · simp only [Option.some.injEq, Prod.mk.injEq] at h
    obtain ⟨_, rfl, rfl⟩ := h
    simp
  · simp only [Option.some.injEq, Prod.mk.injEq] at h
    obtain ⟨_, rfl, rfl⟩ := h
    simp
  · split at h <;>
      · simp only [Option.some.injEq, Prod.mk.injEq] at h
        obtain ⟨_, rfl, rfl⟩ := h
        simp only [List.length_cons]
        omega

/-- Joins the two rarest nodes until one is left, and gives the depths of its symbols.
The symbols come first, the joined nodes second; both lists rise. -/
def joinNodes (symbols joined : List CodeNode) : List Nat :=
  match _first : takeRarest symbols joined with
  | none => []
  | some (a, symbols', joined') =>
    match _second : takeRarest symbols' joined' with
    | none => a.depths
    | some (b, symbols'', joined'') => joinNodes symbols'' (joined'' ++ [a.join b])
termination_by symbols.length + joined.length
decreasing_by
  have := length_takeRarest _first
  have := length_takeRarest _second
  simp only [List.length_append, List.length_singleton]
  omega

/-- The depths of symbols of rising frequencies. A single symbol has the depth one. -/
def symbolDepths (frequencies : List Nat) : List Nat :=
  match frequencies with
  | [_] => [1]
  | _ => joinNodes (frequencies.map fun f => ⟨f, [0]⟩) []

/-- The room that words of some lengths take among the words of length `limit`. -/
def roomOf (limit : Nat) (lengths : List Nat) : Nat :=
  lengths.foldr (fun l room => Nat.pow 2 (limit - l) + room) 0

/-- Makes room for one word among falling lengths: one of the longest words and the
longest shorter word become both one bit longer than the latter. -/
def makeRoom (limit : Nat) (lengths : List Nat) : List Nat :=
  match lengths.takeWhile (· == limit), lengths.dropWhile (· == limit) with
  | _ :: longest, l :: rest => longest ++ (l + 1) :: (l + 1) :: rest
  | _, _ => lengths

/-- Shortens falling lengths to a limit, and makes room until there is enough. -/
def limitLengths (limit : Nat) (lengths : List Nat) : List Nat :=
  let lengths := lengths.map (min limit)
  Nat.repeat (makeRoom limit) (roomOf limit lengths - Nat.pow 2 limit) lengths

/-- The **lengths** of the code words of symbols with given frequencies, none longer
than `limit`. A symbol that does not occur has the length zero. -/
def codeLengths (limit : Nat) (frequencies : List Nat) : List Nat :=
  let symbols := (frequencies.zipIdx.filter (·.1 != 0)).mergeSort fun a b => a.1 ≤ b.1
  let depths := (symbolDepths (symbols.map (·.1))).mergeSort fun a b => b ≤ a
  let lengths := limitLengths limit depths
  ((symbols.zip lengths).foldl (fun (table : Array Nat) p => table.setIfInBounds p.1.2 p.2)
    (Array.replicate frequencies.length 0)).toList

end MailMerge
