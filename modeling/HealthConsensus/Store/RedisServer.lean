import HealthConsensus.Store.Memory
import HealthConsensus.Store.Redis

namespace HealthConsensus

structure RedisServer where
  contents : Contents
  pageSize : Nat
  positive : 0 < pageSize
  repeats : Bool
  vanishing : List String
  refused : List String
  sent : List RedisCommand

namespace RedisServer

theorem max_one_pos (n : Nat) : 0 < max n 1 := Nat.le_max_right n 1

def ofPages (pageSize : Nat) (repeats : Bool) : RedisServer :=
  ⟨.empty, max pageSize 1, max_one_pos pageSize, repeats, [], [], []⟩

def refusal : Error := .store "refused by the server"

def take (c : RedisCommand) (s : RedisServer) : Except Error Unit × RedisServer :=
  (if s.refused.contains c.name then .error refusal else .ok (), { s with sent := c :: s.sent })

def matching (pattern : String) (s : RedisServer) : List String :=
  ((s.contents.entries.map Prod.fst).filter fun k =>
    Glob.isMatch (Bytes.ofString pattern) (Bytes.ofString k)).reverse

def page (cursor : Nat) (pattern : String) (s : RedisServer) : KeyPage :=
  let keys := s.matching pattern
  let ending := cursor + s.pageSize
  let again := if s.repeats && 0 < cursor then keys[cursor - 1]?.toList else []
  ⟨if ending < keys.length then ending else 0, again ++ (keys.drop cursor).take s.pageSize⟩

def vanish (s : RedisServer) : RedisServer :=
  { s with
    contents := s.vanishing.foldl (fun c k => c.erase k) s.contents
    vanishing := [] }

def scan (cursor : Nat) (pattern : String) (s : RedisServer) :
    Except Error KeyPage × RedisServer :=
  match s.take (.scan cursor pattern) with
  | (.error e, s) => (.error e, s)
  | (.ok (), s) =>
    let page := s.page cursor pattern
    (.ok page, if page.next = 0 then s.vanish else s)

def get (k : String) (s : RedisServer) : Except Error (Option Bytes) × RedisServer :=
  let (taken, s) := s.take (.get k)
  (taken.map fun () => s.contents.get? k, s)

def peer : RedisPeer RedisServer := ⟨scan, get⟩

theorem scan_ok {cursor : Nat} {pattern : String} {s t : RedisServer} {page : KeyPage}
    (h : s.scan cursor pattern = (.ok page, t)) :
    page = s.page cursor pattern ∧ (page.next ≠ 0 → t.contents = s.contents) := by
  unfold scan at h
  split at h
  · cases h
  · next u taken =>
    obtain ⟨rfl⟩ : { s with sent := .scan cursor pattern :: s.sent } = u :=
      congrArg Prod.snd taken
    simp only [Prod.mk.injEq, Except.ok.injEq] at h
    obtain ⟨rfl, rfl⟩ := h
    refine ⟨rfl, fun more => ?_⟩
    rw [if_neg more]

theorem page_next {cursor : Nat} {pattern : String} {s : RedisServer}
    (more : (s.page cursor pattern).next ≠ 0) :
    (s.page cursor pattern).next = cursor + s.pageSize ∧
      cursor + s.pageSize < (s.matching pattern).length := by
  simp only [page] at more ⊢
  split at more
  · next inside => exact ⟨if_pos inside, inside⟩
  · exact absurd rfl more

theorem pages_isSome (pattern : String) (cursor : Nat) (s : RedisServer) :
    (peer.pages pattern cursor s).isSome := by
  rw [RedisPeer.pages]
  refine RedisTalk.bind_isSome rfl fun first t h => ?_
  by_cases last : first.next = 0
  · rw [if_pos last]
    rfl
  · rw [if_neg last]
    obtain ⟨here, same⟩ := scan_ok (Option.some.inj h)
    obtain ⟨next, bound⟩ := page_next (here ▸ last)
    have := s.positive
    exact RedisTalk.bind_isSome (pages_isSome pattern first.next t) fun _ _ _ => rfl
termination_by (s.matching pattern).length - cursor
decreasing_by
  simp only [matching, same last] at bound ⊢
  rw [here, next]
  omega

def list (start : String) (s : RedisServer) :
    Except Error (List (String × Bytes)) × RedisServer :=
  (RedisStore.list peer start s).get (RedisStore.list_isSome (pages_isSome _ 0 s))

def set (k : String) (v : Bytes) (s : RedisServer) :
    Except Error Unit × RedisServer × List StoreEvent :=
  match s.take (.set k v) with
  | (.error e, s) => (.error e, s, [])
  | (.ok (), s) => (.ok (), { s with contents := s.contents.set k v }, [.put k v])

def delete (k : String) (s : RedisServer) :
    Except Error Unit × RedisServer × List StoreEvent :=
  match s.take (.delete k) with
  | (.error e, s) => (.error e, s, [])
  | (.ok (), s) =>
    (.ok (), { s with contents := s.contents.erase k },
      if (s.contents.get? k).isSome then [.delete k] else [])

def ping (s : RedisServer) : Bool × RedisServer :=
  let (taken, s) := s.take .ping
  (taken.isOk, s)

end RedisServer

end HealthConsensus
