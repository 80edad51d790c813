import Groundplan.Source.Layout

/-!
# Stores of a project

Every generated project has the same repository and the same event store, each as a contract and
an adapter that keeps everything in memory.
-/

namespace Groundplan.Project

def repositoryLines : List String := [
  "\"\"\"Repository port and an in-memory adapter for aggregates.\"\"\"",
  "",
  "from __future__ import annotations",
  "",
  "from abc import ABC, abstractmethod",
  "from typing import Callable, Dict, Generic, List, Optional, TypeVar",
  "",
  "T = TypeVar(\"T\")",
  "",
  "",
  "class Repository(ABC, Generic[T]):",
  "    \"\"\"Loads and stores aggregates of one type by id.\"\"\"",
  "",
  "    @abstractmethod",
  "    async def find_by_id(self, aggregate_id: str) -> Optional[T]:",
  "        \"\"\"Return the aggregate with ``aggregate_id``, or None.\"\"\"",
  "        ...",
  "",
  "    @abstractmethod",
  "    async def save(self, aggregate: T) -> None:",
  "        \"\"\"Insert or replace ``aggregate``.\"\"\"",
  "        ...",
  "",
  "    @abstractmethod",
  "    async def delete(self, aggregate_id: str) -> None:",
  "        \"\"\"Remove the aggregate with ``aggregate_id`` if present.\"\"\"",
  "        ...",
  "",
  "",
  "class InMemoryRepository(Repository[T]):",
  "    \"\"\"Dict-backed repository for tests and local development.\"\"\"",
  "",
  "    def __init__(self, id_of: Callable[[T], str]):",
  "        self._id_of = id_of",
  "        self._items: Dict[str, T] = \x7b\x7d",
  "",
  "    async def find_by_id(self, aggregate_id: str) -> Optional[T]:",
  "        return self._items.get(aggregate_id)",
  "",
  "    async def save(self, aggregate: T) -> None:",
  "        self._items[self._id_of(aggregate)] = aggregate",
  "",
  "    async def delete(self, aggregate_id: str) -> None:",
  "        self._items.pop(aggregate_id, None)",
  "",
  "    def all(self) -> List[T]:",
  "        return list(self._items.values())",
  "",
  "    def __len__(self) -> int:",
  "        return len(self._items)"]

def repository : String :=
  Source.fileText repositoryLines

def eventStoreLines : List String := [
  "\"\"\"Append-only event store with optimistic concurrency per aggregate.\"\"\"",
  "",
  "from __future__ import annotations",
  "",
  "from abc import ABC, abstractmethod",
  "from datetime import datetime, timezone",
  "from typing import Dict, List, Optional, Sequence",
  "",
  "from ..domain.events import DomainEvent, EventMetadata",
  "",
  "",
  "class ConcurrencyError(Exception):",
  "    \"\"\"The aggregate's stream moved on since it was loaded.\"\"\"",
  "",
  "    def __init__(self, aggregate_id: str, expected_version: int, actual_version: int):",
  "        self.aggregate_id = aggregate_id",
  "        self.expected_version = expected_version",
  "        self.actual_version = actual_version",
  "        super().__init__(",
  "            f\"Concurrency conflict on \x7baggregate_id\x7d: \"",
  "            f\"expected version \x7bexpected_version\x7d, found \x7bactual_version\x7d\"",
  "        )",
  "",
  "",
  "class EventStore(ABC):",
  "    \"\"\"Event streams keyed by aggregate id.\"\"\"",
  "",
  "    @abstractmethod",
  "    async def append_events(",
  "        self,",
  "        aggregate_id: str,",
  "        aggregate_type: str,",
  "        events: Sequence[DomainEvent],",
  "        expected_version: Optional[int] = None,",
  "    ) -> int:",
  "        \"\"\"Append ``events`` to the aggregate's stream.",
  "",
  "        Args:",
  "            aggregate_id: Stream to append to",
  "            aggregate_type: Aggregate type recorded in the event metadata",
  "            events: Events in the order they happened",
  "            expected_version: Stream length the caller last saw; None skips the check",
  "",
  "        Returns:",
  "            The new stream version",
  "",
  "        Raises:",
  "            ConcurrencyError: If ``expected_version`` does not match the stream",
  "        \"\"\"",
  "        ...",
  "",
  "    @abstractmethod",
  "    async def load_events(self, aggregate_id: str) -> List[DomainEvent]:",
  "        \"\"\"Events of one aggregate in append order.\"\"\"",
  "        ...",
  "",
  "    @abstractmethod",
  "    async def get_all_events(self) -> List[DomainEvent]:",
  "        \"\"\"Every stored event in global append order.\"\"\"",
  "        ...",
  "",
  "",
  "class InMemoryEventStore(EventStore):",
  "    \"\"\"List-backed event store. No persistence across restarts.\"\"\"",
  "",
  "    def __init__(self) -> None:",
  "        self._streams: Dict[str, List[DomainEvent]] = \x7b\x7d",
  "        self._log: List[DomainEvent] = []",
  "        self._metadata: List[EventMetadata] = []",
  "",
  "    async def append_events(",
  "        self,",
  "        aggregate_id: str,",
  "        aggregate_type: str,",
  "        events: Sequence[DomainEvent],",
  "        expected_version: Optional[int] = None,",
  "    ) -> int:",
  "        stream = self._streams.setdefault(aggregate_id, [])",
  "        if expected_version is not None and expected_version != len(stream):",
  "            raise ConcurrencyError(aggregate_id, expected_version, len(stream))",
  "",
  "        stored_at = datetime.now(timezone.utc)",
  "        for event in events:",
  "            stream.append(event)",
  "            self._log.append(event)",
  "            self._metadata.append(",
  "                EventMetadata(",
  "                    event_id=event.event_id,",
  "                    event_type=event.type,",
  "                    aggregate_id=aggregate_id,",
  "                    aggregate_type=aggregate_type,",
  "                    sequence_number=len(stream),",
  "                    occurred_at=event.occurred_at,",
  "                    stored_at=stored_at,",
  "                )",
  "            )",
  "        return len(stream)",
  "",
  "    async def load_events(self, aggregate_id: str) -> List[DomainEvent]:",
  "        return list(self._streams.get(aggregate_id, []))",
  "",
  "    async def get_all_events(self) -> List[DomainEvent]:",
  "        return list(self._log)",
  "",
  "    def metadata(self) -> List[EventMetadata]:",
  "        return list(self._metadata)"]

def eventStore : String :=
  Source.fileText eventStoreLines

end Groundplan.Project
