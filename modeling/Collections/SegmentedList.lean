import Collections.SegmentedList.Cursor
import Collections.SegmentedList.Derive
import Collections.SegmentedList.Edit
import Collections.SegmentedList.Search
import Collections.SegmentedList.Sections
import Collections.SegmentedList.Traversal

/-! Segmented lists: editing, searching, deriving, sections, traversals and cursors. -/
