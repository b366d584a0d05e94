import Mathlib.Data.Nat.Init
import Mathlib.Tactic.ByContra

/-!
# A server without a queue

A server takes up a request that finds it idle, reads the value that is on its input
some time later, and is busy until it is idle again. A request that finds it busy is
lost. The values come from a source that raises a request with each of them.

Every value is read exactly once, while it is still on the input, if and only if every
request finds the server idle. The length of a service matters only through its
bounds: values that are further apart than the longest service are all read, and of
two that are no further apart than the shortest one is not.

Cycles are natural numbers and the signals are predicates on them. Nothing here
depends on what the server is.
-/

namespace CpenLabs.RequestService

variable (idle resting request reading : Nat → Prop) (shortest longest : Nat)

/-- The service of a request that is made in the cycle `start`: the server is busy up
to the cycle `last` and reads in exactly one cycle. -/
structure Served (start read last : Nat) : Prop where
  after : start < read
  before : read ≤ last
  reads : reading read
  only : ∀ cycle, start ≤ cycle → cycle ≤ last → reading cycle → cycle = read
  busy : ∀ cycle, start < cycle → cycle ≤ last → ¬ idle cycle
  atLeast : start + shortest ≤ last
  atMost : last ≤ start + longest

/-- What the server does from a first cycle on. It rests until there is a request,
serves that, and rests again. The invariant of a resting server says no more than
that it is idle, but for what the next steps need. -/
structure Server (first : Nat) : Prop where
  initially : resting first
  ready : ∀ cycle, resting cycle → idle cycle
  quiet : ∀ cycle, first ≤ cycle → resting cycle → ¬ reading cycle
  rests : ∀ cycle, first ≤ cycle → resting cycle → ¬ request cycle → resting (cycle + 1)
  serves : ∀ start, first ≤ start → resting start → request start →
    ∃ read last, Served idle reading shortest longest start read last ∧ resting (last + 1)

variable {idle resting request reading shortest longest} {first : Nat}

section Services

variable (server : Server idle resting request reading shortest longest first)

include server

/-- In every cycle the server rests or is within the service of a request that found
it resting. -/
theorem Server.covered (cycle : Nat) (late : first ≤ cycle) :
    resting cycle ∨ ∃ start read last, first ≤ start ∧ resting start ∧ request start ∧
      Served idle reading shortest longest start read last ∧ resting (last + 1) ∧
      start < cycle ∧ cycle ≤ last := by
  induction cycle, late using Nat.le_induction with
  | base => exact .inl server.initially
  | succ cycle late inductionHypothesis =>
    cases inductionHypothesis with
    | inl rests =>
      by_cases requested : request cycle
      · obtain ⟨read, last, served, again⟩ := server.serves cycle late rests requested
        have longer := Nat.lt_of_lt_of_le served.after served.before
        exact .inr ⟨cycle, read, last, late, rests, requested, served, again, Nat.lt_succ_self cycle, longer⟩
      · exact .inl (server.rests cycle late rests requested)
    | inr within =>
      obtain ⟨start, read, last, low, rests, requested, served, again, after, before⟩ := within
      by_cases ended : cycle = last
      · exact .inl (ended ▸ again)
      · exact .inr ⟨start, read, last, low, rests, requested, served, again, by omega, by omega⟩

/-- An idle server rests. -/
theorem Server.idle_rests (cycle : Nat) (late : first ≤ cycle) (isIdle : idle cycle) : resting cycle := by
  cases server.covered cycle late with
  | inl rests => exact rests
  | inr within =>
    obtain ⟨start, read, last, _, _, _, served, _, after, before⟩ := within
    exact absurd isIdle (served.busy cycle after before)

/-- Every reading belongs to the service of a request. -/
theorem Server.reading_served (cycle : Nat) (late : first ≤ cycle) (reads : reading cycle) :
    ∃ start last, first ≤ start ∧ resting start ∧ request start ∧
      Served idle reading shortest longest start cycle last := by
  cases server.covered cycle late with
  | inl rests => exact absurd reads (server.quiet cycle late rests)
  | inr within =>
    obtain ⟨start, read, last, low, rests, requested, served, _, after, before⟩ := within
    obtain rfl := served.only cycle (Nat.le_of_lt after) before reads
    exact ⟨start, last, low, rests, requested, served⟩

end Services

section Values

/-- The value assigned in a cycle is read while it is still on the input. -/
structure ReadIn (assigned reading : Nat → Prop) (cycle read : Nat) : Prop where
  after : cycle < read
  reads : reading read
  kept : ∀ other, cycle < other → other < read → ¬ assigned other

variable {assigned : Nat → Prop} (server : Server idle resting request reading shortest longest first)
  (raised : ∀ start, first ≤ start → request start → ∃ cycle, start = cycle + 1 ∧ assigned cycle)

include server raised

/-- A value that is read before the next one is read in the service that the value's
own request begins. -/
theorem Server.read_own (cycle read : Nat) (late : first ≤ cycle + 1)
    (readIn : ReadIn assigned reading cycle read) :
    ∃ start last, first ≤ start ∧ start ≤ cycle + 1 ∧ resting start ∧ request start ∧
      Served idle reading shortest longest start read last := by
  obtain ⟨start, last, low, rests, requested, served⟩ :=
    server.reading_served read (Nat.le_trans late readIn.after) readIn.reads
  obtain ⟨other, rfl, assigns⟩ := raised start low requested
  refine ⟨other + 1, last, low, ?_, rests, requested, served⟩
  by_contra later
  exact readIn.kept other (by omega) (Nat.lt_of_succ_lt served.after) assigns

/-- If every value finds the server idle, each is read exactly once. -/
theorem Server.once_of_idle
    (heard : ∀ cycle, first ≤ cycle + 1 → assigned cycle → idle (cycle + 1) → request (cycle + 1))
    (free : ∀ cycle, first ≤ cycle + 1 → assigned cycle → idle (cycle + 1))
    (cycle : Nat) (late : first ≤ cycle + 1) (assigns : assigned cycle) :
    ∃ read, ReadIn assigned reading cycle read ∧
      ∀ other, ReadIn assigned reading cycle other → other = read := by
  have isIdle := free cycle late assigns
  obtain ⟨read, last, served, _⟩ := server.serves (cycle + 1) late
    (server.idle_rests (cycle + 1) late isIdle) (heard cycle late assigns isIdle)
  refine ⟨read, ⟨Nat.lt_of_succ_lt served.after, served.reads, ?_⟩, ?_⟩
  · intro other after before assigned
    exact served.busy (other + 1) (by omega) (Nat.le_trans before served.before)
      (free other (by omega) assigned)
  · intro other readIn
    obtain ⟨start, final, low, notLater, rests, _, owned⟩ := server.read_own raised cycle other late readIn
    have reaches := owned.before
    have follows := readIn.after
    -- A service that had begun before would still be busy now.
    have same : start = cycle + 1 := by
      by_contra different
      exact owned.busy (cycle + 1) (by omega) (by omega) isIdle
    subst same
    cases Nat.le_total final last with
    | inl shorter => exact served.only other (Nat.le_of_lt owned.after) (Nat.le_trans reaches shorter) readIn.reads
    | inr longer =>
      exact (owned.only read (Nat.le_of_lt served.after) (Nat.le_trans served.before longer) served.reads).symm

/-- If each value is read exactly once, every value finds the server idle: one that
came while an earlier value was served would end that value's time on the input, and
its own request would be lost. -/
theorem Server.idle_of_once
    (once : ∀ cycle, first ≤ cycle + 1 → assigned cycle → ∃ read, ReadIn assigned reading cycle read)
    (cycle : Nat) (late : first ≤ cycle + 1) (assigns : assigned cycle) : idle (cycle + 1) := by
  cases server.covered (cycle + 1) late with
  | inl rests => exact server.ready _ rests
  | inr within =>
    obtain ⟨start, read, last, low, rests, requested, served, _, after, before⟩ := within
    exfalso
    obtain ⟨earlier, rfl, assignedEarlier⟩ := raised start low requested
    obtain ⟨own, ownRead⟩ := once earlier low assignedEarlier
    have ownInTime : own ≤ cycle := by
      by_contra tooLate
      exact ownRead.kept cycle (by omega) (by omega) assigns
    have ownAfter := ownRead.after
    have ownSame := served.only own ownAfter (by omega) ownRead.reads
    obtain ⟨next, nextRead⟩ := once cycle late assigns
    obtain ⟨other, final, _, notLater, restsThen, _, owned⟩ := server.read_own raised cycle next late nextRead
    have follows := nextRead.after
    have reaches := owned.before
    -- The later reading would have to belong to a service that began within this one.
    by_cases inside : next ≤ last
    · have sameRead := served.only next (by omega) inside nextRead.reads
      omega
    · by_cases earlierStart : earlier + 1 < other
      · exact served.busy other earlierStart (by omega) (server.ready other restsThen)
      · by_cases same : other = earlier + 1
        · subst same
          have sameRead := owned.only own ownAfter (by omega) ownRead.reads
          omega
        · exact owned.busy (earlier + 1) (by omega) (by omega) (server.ready _ rests)

/-- Each value is read exactly once if and only if every value finds the server
idle. -/
theorem Server.once_iff
    (heard : ∀ cycle, first ≤ cycle + 1 → assigned cycle → idle (cycle + 1) → request (cycle + 1)) :
    (∀ cycle, first ≤ cycle + 1 → assigned cycle →
      ∃ read, ReadIn assigned reading cycle read ∧
        ∀ other, ReadIn assigned reading cycle other → other = read) ↔
      ∀ cycle, first ≤ cycle + 1 → assigned cycle → idle (cycle + 1) := by
  constructor
  · intro once
    apply server.idle_of_once raised
    intro cycle late assigns
    obtain ⟨read, readIn, _⟩ := once cycle late assigns
    exact ⟨read, readIn⟩
  · exact server.once_of_idle raised heard

/-- Values that are further apart than the longest service all find the server
idle. -/
theorem Server.idle_of_spaced
    (spaced : ∀ early late, first ≤ early + 1 → early < late → assigned early → assigned late →
      early + longest < late)
    (cycle : Nat) (late : first ≤ cycle + 1) (assigns : assigned cycle) : idle (cycle + 1) := by
  cases server.covered (cycle + 1) late with
  | inl rests => exact server.ready _ rests
  | inr within =>
    obtain ⟨start, read, last, low, _, requested, served, _, after, before⟩ := within
    obtain ⟨earlier, rfl, assignedEarlier⟩ := raised start low requested
    have apart := spaced earlier cycle low (by omega) assignedEarlier assigns
    have bound := served.atMost
    omega

omit raised in
/-- Of two values that are no further apart than the shortest service, one finds the
server busy. -/
theorem Server.busy_of_close
    (heard : ∀ cycle, first ≤ cycle + 1 → assigned cycle → idle (cycle + 1) → request (cycle + 1))
    (early late : Nat) (low : first ≤ early + 1) (ordered : early < late) (close : late ≤ early + shortest)
    (assigns : assigned early) : ¬ (idle (early + 1) ∧ idle (late + 1)) := by
  rintro ⟨isIdle, stillIdle⟩
  obtain ⟨read, last, served, _⟩ := server.serves (early + 1) low
    (server.idle_rests (early + 1) low isIdle) (heard early low assigns isIdle)
  have bound := served.atLeast
  exact served.busy (late + 1) (by omega) (by omega) stillIdle

end Values

end CpenLabs.RequestService
